import MethodLinkage.Proofs.ReachedStates

/-!
# Lazy matching

Matching a signature against a descriptor resolves the same elements in the same
order as building one from the descriptor does, but stops at the first that
differs. So it tells whether the built signature would be equal; where building
fails, matching fails with it or has found a difference before.

Building fails at a parameter whose number is not issued, which matching does not
look at. A built signature has no such number among its parameters, so matching
stops there.
-/

namespace MethodLinkage

variable {ρ σ α β : Type}

namespace Outcome

/-- A comparison that may end early, held against the outcome it anticipates. -/
structure Anticipates (early : Outcome ρ Bool) (full : Outcome ρ α) (equal : α → Bool) : Prop where
  value : ∀ value, full.answer = .ok value → early.answer = .ok (equal value)
  failure : ∀ failure, full.answer = .error failure →
    early.answer = .error failure ∨ early.answer = .ok false
  arena : early.arena.types <+: full.arena.types

namespace Anticipates

variable {early : Outcome ρ Bool} {full : Outcome ρ α} {equal : α → Bool}

theorem stop {arena : Arena} {resolver : ρ} (hgrown : arena.types <+: full.arena.types)
    (hdiffers : ∀ value, full.answer = .ok value → equal value = false) :
    Anticipates (.ok false arena resolver) full equal where
  value value h := by
    rw [hdiffers value h]
    rfl
  failure _ _ := .inr rfl
  arena := hgrown

theorem fault (fault : Fault) (arena : Arena) (resolver : ρ) :
    Anticipates (.fault fault arena resolver) (.fault fault arena resolver) equal where
  value _ h := by cases h
  failure _ h := by
    cases h
    exact .inl rfl
  arena := List.prefix_refl _

theorem andThen {outcome : Outcome ρ β} {early : β → Arena → ρ → Outcome ρ Bool}
    {full : β → Arena → ρ → Outcome ρ α}
    (h : ∀ value, outcome.answer = .ok value →
      Anticipates (early value outcome.arena outcome.resolver)
        (full value outcome.arena outcome.resolver) equal) :
    Anticipates (outcome.andThen early) (outcome.andThen full) equal := by
  obtain ⟨answer, arena, resolver⟩ := outcome
  cases answer with
  | ok value => exact h value rfl
  | error failure =>
    refine ⟨fun _ hvalue => (by cases hvalue), fun other hother => ?_, List.prefix_refl _⟩
    cases hother
    exact .inl rfl

theorem full_of_true (h : Anticipates early full equal) (htrue : early.answer = .ok true) :
    ∃ value, full.answer = .ok value ∧ equal value = true := by
  cases hfull : full.answer with
  | ok value =>
    have hvalue := h.value value hfull
    rw [htrue] at hvalue
    exact ⟨value, rfl, (Except.ok.inj hvalue).symm⟩
  | error failure =>
    have hfailure := h.failure failure hfull
    simp [htrue] at hfailure

theorem full_of_error (h : Anticipates early full equal) {failure : Failure}
    (herror : early.answer = .error failure) : full.answer = .error failure := by
  cases hfull : full.answer with
  | ok value =>
    have hvalue := h.value value hfull
    rw [herror] at hvalue
    cases hvalue
  | error other =>
    rcases h.failure other hfull with hother | hother
    · rw [herror] at hother
      rw [Except.error.inj hother]
    · rw [herror] at hother
      cases hother

end Anticipates

end Outcome

/-- What arenas offer to resolvers: types can be added, and none is taken away. -/
def Resolver.Grows (ρ : Type) [Resolver ρ] : Prop :=
  ∀ (resolver : ρ) arena view name,
    arena.types <+: (Resolver.resolve resolver arena view name).arena.types

theorem Resolver.Grows.within [Resolver ρ] (h : Grows ρ) (view : Viewpoint) :
    Within ρ view fun before after => before.1.types <+: after.1.types where
  refl _ := List.prefix_refl _
  trans := List.IsPrefix.trans
  resolve arena resolver _ name _ := h resolver arena view name
  placeholder arena _ _ _ := arena.types_prefix_intern _

theorem LoaderSystem.grows : Resolver.Grows LoaderSystem :=
  fun system arena view name => Lookups.types_prefix (resolve_lookups system arena view name)

namespace Signature

structure IsFilled (arena : Arena) (signature : Signature) : Prop where
  length : signature.parameters.length = signature.descriptor.parameters.length
  issued : ∀ id ∈ signature.parameters, ∃ type, arena.get? id = some type

theorem IsFilled.mono {arena larger : Arena} {signature : Signature}
    (hgrown : arena.types <+: larger.types) (h : signature.IsFilled arena) :
    signature.IsFilled larger where
  length := h.length
  issued id hid := (h.issued id hid).imp fun _ htype => Arena.get?_mono hgrown htype

variable [Resolver ρ] [Resolver σ] {view : Viewpoint} {loader : LoaderIndex} {arena : Arena}
  {resolver : ρ}

theorem length_of_resolveParameters {types : List FieldType} {answer : List TypeIndex × UInt32}
    (h : (resolveParameters view loader types arena resolver).answer = .ok answer) :
    answer.1.length = types.length := by
  induction types generalizing arena resolver answer with
  | nil =>
    cases h
    rfl
  | cons type types ih =>
    rw [resolveParameters] at h
    obtain ⟨id, -, heq⟩ := Outcome.exists_of_andThen h
    rw [heq] at h
    split at h
    · cases h
    · obtain ⟨others, hothers, hrest⟩ := Outcome.exists_of_andThen h
      rw [hrest] at h
      cases h
      exact congrArg Nat.succ (ih hothers)

theorem issued_of_resolveParameters (hgrows : Resolver.Grows ρ) {types : List FieldType}
    {answer : List TypeIndex × UInt32}
    (h : (resolveParameters view loader types arena resolver).answer = .ok answer) :
    ∀ id ∈ answer.1, ∃ type,
      (resolveParameters view loader types arena resolver).arena.get? id = some type := by
  induction types generalizing arena resolver answer with
  | nil =>
    cases h
    exact List.forall_mem_nil _
  | cons type types ih =>
    rw [resolveParameters] at h ⊢
    obtain ⟨id, -, heq⟩ := Outcome.exists_of_andThen h
    rw [heq] at h ⊢
    split at h
    · cases h
    · next resolved hid =>
      obtain ⟨others, hothers, hrest⟩ := Outcome.exists_of_andThen h
      rw [hrest] at h ⊢
      cases h
      have hgrown := (hgrows.within view).resolveParameters loader types
        (resolveElement view loader (.field type) arena resolver).arena
        (resolveElement view loader (.field type) arena resolver).resolver
      exact List.forall_mem_cons.mpr ⟨⟨resolved, Arena.get?_mono hgrown hid⟩, ih hothers⟩

theorem exists_of_build {descriptor : Descriptor} {signature : Signature}
    (h : (build view descriptor arena resolver).answer = .ok signature) :
    ∃ loader ids slots result, ∃ first : Outcome ρ (List TypeIndex × UInt32),
      ∃ last : Outcome ρ TypeIndex,
      resolveParameters view loader descriptor.parameters arena resolver = first ∧
      first.answer = .ok (ids, slots) ∧
      resolveElement view loader descriptor.result first.arena first.resolver = last ∧
      last.answer = .ok result ∧
      build view descriptor arena resolver =
        .ok ⟨descriptor, view.accessing, ids, result, slots⟩ last.arena last.resolver := by
  rw [build_eq] at h ⊢
  split at h
  · cases h
  · next loader hloader =>
    obtain ⟨⟨ids, slots⟩, hids, heq⟩ := Outcome.exists_of_andThen h
    rw [heq] at h ⊢
    obtain ⟨result, hresult, hlast⟩ := Outcome.exists_of_andThen h
    exact ⟨loader, ids, slots, result, _, _, rfl, hids, rfl, hresult, hlast⟩

theorem descriptor_of_build {descriptor : Descriptor} {signature : Signature}
    (h : (build view descriptor arena resolver).answer = .ok signature) :
    signature.descriptor = descriptor := by
  obtain ⟨_, _, _, _, _, _, -, -, -, -, hbuild⟩ := exists_of_build h
  rw [hbuild] at h
  rw [← Except.ok.inj h]

theorem length_of_build {descriptor : Descriptor} {signature : Signature}
    (h : (build view descriptor arena resolver).answer = .ok signature) :
    signature.parameters.length = signature.descriptor.parameters.length := by
  obtain ⟨_, ids, _, _, _, _, rfl, hids, rfl, -, hbuild⟩ := exists_of_build h
  rw [hbuild] at h
  rw [← Except.ok.inj h]
  exact length_of_resolveParameters hids

theorem isFilled_of_build (hgrows : Resolver.Grows ρ) {descriptor : Descriptor}
    {signature : Signature} (h : (build view descriptor arena resolver).answer = .ok signature) :
    signature.IsFilled (build view descriptor arena resolver).arena := by
  obtain ⟨loader, ids, slots, result, _, _, rfl, hids, rfl, -, hbuild⟩ := exists_of_build h
  rw [hbuild] at h ⊢
  rw [← Except.ok.inj h]
  exact IsFilled.mono ((hgrows.within view).resolveElement ..)
    ⟨length_of_resolveParameters hids, issued_of_resolveParameters hgrows hids⟩

theorem matchPending_cons (own : TypeIndex) (owns : List PlacedType) (element : Element)
    (rest : List PlacedElement) (isReturn : Bool) :
    matchPending view loader (⟨own, isReturn⟩ :: owns) (⟨element, isReturn⟩ :: rest) none arena
      resolver =
      (resolveElement view loader element arena resolver).andThen fun id arena resolver =>
        if own = id then matchPending view loader owns rest none arena resolver
        else .ok false arena resolver :=
  if_neg (not_not.mpr rfl)

theorem matchPending_anticipates (hgrows : Resolver.Grows ρ) {types : List FieldType}
    {owns : List TypeIndex} (hlength : owns.length = types.length)
    (hissued : ∀ id ∈ owns, ∃ type, arena.get? id = some type) (result : Element)
    (own : TypeIndex) (make : List TypeIndex → UInt32 → TypeIndex → α) (equal : α → Bool)
    (hequal : ∀ ids slots id, equal (make ids slots id) = true ↔ owns = ids ∧ own = id) :
    (matchPending view loader (owns.map (⟨·, false⟩) ++ [⟨own, true⟩])
      (types.map (fun type => ⟨.field type, false⟩) ++ [⟨result, true⟩]) none arena
      resolver).Anticipates
      ((resolveParameters view loader types arena resolver).andThen
        fun (ids, slots) arena resolver =>
          (resolveElement view loader result arena resolver).andThen fun id =>
            .ok (make ids slots id)) equal := by
  induction types generalizing owns arena resolver make with
  | nil =>
    obtain rfl := List.length_eq_zero_iff.mp hlength
    rw [resolveParameters, Outcome.andThen_ok, List.map_nil, List.map_nil, List.nil_append,
      List.nil_append, matchPending_cons]
    refine .andThen fun id _ => ?_
    split
    · next hid =>
      refine ⟨fun value hvalue => ?_, fun _ hfailure => (by cases hfailure), List.prefix_refl _⟩
      cases hvalue
      rw [(hequal [] 0 id).mpr ⟨rfl, hid⟩]
      rfl
    · next hid =>
      refine .stop (List.prefix_refl _) fun value hvalue => ?_
      cases hvalue
      exact Bool.eq_false_iff.mpr fun h => hid ((hequal [] 0 id).mp h).2
  | cons type types ih =>
    obtain ⟨first, owns, rfl⟩ := List.exists_cons_of_length_eq_add_one hlength
    obtain ⟨hfirst, hrest⟩ := List.forall_mem_cons.mp hissued
    rw [resolveParameters, Outcome.andThen_assoc, List.map_cons, List.map_cons, List.cons_append,
      List.cons_append, matchPending_cons]
    refine .andThen fun id _ => ?_
    have hgrown := (hgrows.within view).resolveElement loader (.field type) arena resolver
    generalize resolveElement view loader (.field type) arena resolver = outcome at hgrown
    obtain ⟨_, larger, after⟩ := outcome
    obtain ⟨type, hfound⟩ : ∃ type, larger.get? first = some type :=
      hfirst.imp fun _ => Arena.get?_mono hgrown
    dsimp only
    cases hlarger : larger.get? id with
    | none =>
      -- building faults here; the signature's own types are issued
      rw [if_neg fun hid => ?_]
      · exact ⟨fun _ hvalue => (by cases hvalue), fun _ _ => .inr rfl, List.prefix_refl _⟩
      · rw [← hid, hfound] at hlarger
        cases hlarger
    | some resolved =>
      simp only [Outcome.andThen_assoc, Outcome.andThen_ok]
      split
      · next hid =>
        refine ih (Nat.succ.inj hlength)
          (fun other hother => (hrest other hother).imp fun _ => Arena.get?_mono hgrown)
          (fun ids slots => make (id :: ids) (resolved.slots + slots)) fun ids slots last => ?_
        rw [hequal, hid, List.cons_inj_right]
      · next hid =>
        refine .stop ?_ fun value hvalue => ?_
        · have hwithin := hgrows.within view
          apply hwithin.andThen (hwithin.resolveParameters loader types larger after)
          intro _ arena resolver
          exact hwithin.andThen (hwithin.resolveElement ..) fun _ _ _ => List.prefix_refl _
        · obtain ⟨_, -, hparameters⟩ := Outcome.exists_of_andThen hvalue
          rw [hparameters] at hvalue
          obtain ⟨_, -, hlast⟩ := Outcome.exists_of_andThen hvalue
          rw [hlast] at hvalue
          rw [← Except.ok.inj hvalue, Bool.eq_false_iff]
          exact fun h => hid (List.cons.inj ((hequal ..).mp h).1).1

theorem matchDescriptor_anticipates (hgrows : Resolver.Grows ρ) {signature : Signature}
    (hfilled : signature.IsFilled arena) (view : Viewpoint) (descriptor : Descriptor)
    (resolver : ρ) :
    (signature.matchDescriptor view descriptor 0 arena resolver).Anticipates
      (build view descriptor arena resolver) (signature == ·) := by
  rw [matchDescriptor, DescriptorCursor.start]
  cases hloader : arena.accessingLoader view.accessing with
  | error fault =>
    rw [build_eq, hloader]
    exact .fault fault arena resolver
  | ok loader =>
    dsimp only [Except.map, DescriptorCursor.skip]
    rw [matchCursor_eq]
    dsimp only
    split
    · next hsame =>
      have hlength : signature.parameters.length = descriptor.parameters.length :=
        hsame ▸ hfilled.length
      rw [build_eq, hloader]
      refine matchPending_anticipates hgrows hlength hfilled.issued descriptor.result
        signature.result (fun ids slots id => ⟨descriptor, view.accessing, ids, id, slots⟩)
        (signature == ·) fun ids slots id => ?_
      simp only [beq_iff, key, hsame, Prod.mk.injEq, true_and]
    · next hdiffers =>
      refine .stop ((hgrows.within view).build descriptor arena resolver) fun other hother => ?_
      refine Bool.eq_false_iff.mpr fun h => hdiffers ?_
      rw [← descriptor_of_build hother]
      exact congrArg Prod.fst (beq_iff.mp h)

/-- Matching a built signature tells whether building again would give an equal one. It fails
only as building would, and never has more types issued. -/
theorem matching_agrees_with_building (hformer : Resolver.Grows σ) (hgrows : Resolver.Grows ρ)
    {first : Viewpoint} {own : Descriptor} {earlier : Arena} {former : σ} {signature : Signature}
    (hbuilt : (build first own earlier former).answer = .ok signature) (arena : Arena)
    (hlater : (build first own earlier former).arena.types <+: arena.types) (resolver : ρ)
    (second : Viewpoint) (descriptor : Descriptor) :
    let matched := signature.matchDescriptor second descriptor 0 arena resolver
    let built := build second descriptor arena resolver
    (∀ other, built.answer = .ok other → matched.answer = .ok (signature == other)) ∧
      (matched.answer = .ok true →
        ∃ other, built.answer = .ok other ∧ (signature == other) = true) ∧
      (∀ failure, matched.answer = .error failure → built.answer = .error failure) ∧
      (∀ failure, built.answer = .error failure →
        matched.answer = .error failure ∨ matched.answer = .ok false) ∧
      matched.arena.types <+: built.arena.types := by
  intro matched built
  have hfilled := (isFilled_of_build hformer hbuilt).mono hlater
  have h : matched.Anticipates built (signature == ·) :=
    matchDescriptor_anticipates hgrows hfilled second descriptor resolver
  exact ⟨h.value, h.full_of_true, fun _ => h.full_of_error, h.failure, h.arena⟩

theorem matching_stops_before_failure :
    let built := build ⟨⟨9⟩, []⟩ Workspace.mixed Workspace.siblings.session.arena
      Workspace.siblings.system
    let failed := build ⟨⟨10⟩, []⟩ Workspace.mixed built.arena built.resolver
    ∃ signature, built.answer = .ok signature ∧
      let matched := signature.matchDescriptor ⟨⟨10⟩, []⟩ Workspace.mixed 0 built.arena
        built.resolver
      failed.answer = .error (.error (.classPath ['p', '/', 'F'] ⟨2⟩ (.other none))) ∧
        matched.answer = .ok false ∧ matched.arena.types <+: failed.arena.types := by
  intro built failed
  have hbuilt : built.answer = .ok ⟨Workspace.mixed, ⟨9⟩, [⟨12⟩, ⟨14⟩, ⟨16⟩, ⟨17⟩], ⟨18⟩, 4⟩ := rfl
  have harena : built.arena = ⟨Workspace.siblings.session.arena.types ++
    [.placeholder ['p', '/', 'D'] ⟨1⟩, .array (.ofPrimitive .long), .array ⟨13⟩,
      .loadedClass ['p', '/', 'A'] ⟨0⟩, .array ⟨15⟩,
      .placeholder ['[', 'L', 'p', '/', 'F', ';'] ⟨1⟩, .placeholder ['q'] ⟨1⟩]⟩ := rfl
  have hresolver : built.resolver = Workspace.siblings.system := rfl
  obtain ⟨-, -, herror, hfailure, hgrown⟩ := matching_agrees_with_building LoaderSystem.grows
    LoaderSystem.grows hbuilt built.arena (List.prefix_refl _) built.resolver ⟨⟨10⟩, []⟩
    Workspace.mixed
  have hfailed : failed.answer =
      .error (.error (.classPath ['p', '/', 'F'] ⟨2⟩ (.other none))) := by
    dsimp only [failed]
    rw [harena, hresolver]
    rfl
  refine ⟨_, hbuilt, ?_⟩
  dsimp only [failed]
  refine ⟨hfailed, ?_, hgrown⟩
  rcases hfailure _ hfailed with herror | hfalse
  · rw [harena, hresolver] at herror
    cases herror
  · exact hfalse

end Signature

end MethodLinkage
