import MethodLinkage.Proofs.LazyMatching
import MethodLinkage.Proofs.SignatureBuilding

/-!
# Numbers that are handed out

A workspace hands out only numbers that it has issued. A caller can put any number
into a table, and gets it back from there; this is the only way by which a number
that was not issued comes into a workspace or out of it.
-/

namespace MethodLinkage

open LoaderSystem (mem_of_lookup)

def SignatureCursor.Reply.numbers : SignatureCursor.Reply → List TypeIndex
  | .type id => [id]
  | .element visited => (visited.map PlacedType.type).toList
  | .elements visited => visited.map PlacedType.type
  | .flag _ | .moved | .count _ => []

def DescriptorCursor.Reply.numbers : DescriptorCursor.Reply → List TypeIndex
  | .type id => [id]
  | .flag _ | .moved | .text _ | .count _ => []

def Resolution.numbers : Resolution → List TypeIndex
  | .found id => [id]
  | .missing _ => []

def numbersIn {ε Reply : Type} (numbers : Reply → List TypeIndex)
    (replies : List (Except ε Reply)) : List TypeIndex :=
  replies.flatMap fun reply =>
    match reply with
    | .ok given => numbers given
    | .error _ => []

theorem exists_of_mem_numbersIn {ε Reply : Type} {numbers : Reply → List TypeIndex}
    {replies : List (Except ε Reply)} {id : TypeIndex} (h : id ∈ numbersIn numbers replies) :
    ∃ reply, .ok reply ∈ replies ∧ id ∈ numbers reply := by
  obtain ⟨reply, hreply, hid⟩ := List.mem_flatMap.mp h
  cases reply with
  | ok given => exact ⟨given, hreply, hid⟩
  | error failure => cases hid

theorem exists_of_map_eq_ok {ε α β : Type} {f : α → β} {result : Except ε α} {value : β}
    (h : result.map f = .ok value) : ∃ given, result = .ok given ∧ f given = value := by
  cases result with
  | error failure => cases h
  | ok given => exact ⟨given, rfl, Except.ok.inj h⟩

theorem of_mapError_eq_ok {ε ε' α : Type} {f : ε → ε'} {result : Except ε α} {value : α}
    (h : result.mapError f = .ok value) : result = .ok value := by
  cases result with
  | error failure => cases h
  | ok given => exact congrArg Except.ok (Except.ok.inj h)

def Answer.numbers : Answer → List TypeIndex
  | .type id => [id]
  | .typeOrNone id => id.toList
  | .resolution given => given.numbers
  | .summary given => given.signature.types
  | .signatureReplies replies => numbersIn SignatureCursor.Reply.numbers replies
  | .descriptorReplies replies => numbersIn DescriptorCursor.Reply.numbers replies
  | .done | .loader _ | .loaderOrNone _ | .text _ | .flag _ | .flags _ | .description _
  | .classInfo _ => []

/-- A number is known if it has been issued or a caller brought it along. -/
def Arena.Knows (arena : Arena) (brought : TypeIndex → Prop) (id : TypeIndex) : Prop :=
  (∃ type, arena.get? id = some type) ∨ brought id

variable {brought : TypeIndex → Prop} {arena larger : Arena} {view : Viewpoint} {id : TypeIndex}

theorem Arena.Knows.mono (hgrown : arena.types <+: larger.types) (h : arena.Knows brought id) :
    larger.Knows brought id := by
  rcases h with ⟨type, htype⟩ | hbrought
  · exact .inl ⟨type, Arena.get?_mono hgrown htype⟩
  · exact .inr hbrought

theorem Arena.knows_ofPrimitive (hstarts : fresh.types <+: arena.types) (base : Primitive) :
    arena.Knows brought (.ofPrimitive base) :=
  .inl ⟨.primitive base, get?_mono hstarts (by cases base <;> rfl)⟩

theorem Arena.knows_void (hstarts : fresh.types <+: arena.types) : arena.Knows brought .void :=
  .inl ⟨.void, get?_mono hstarts rfl⟩

/-- All numbers of a table are known. -/
def References.Known (references : References) (arena : Arena) (brought : TypeIndex → Prop) :
    Prop :=
  ∀ reference ∈ references, arena.Knows brought reference.2

theorem References.Known.mono {references : References} (hgrown : arena.types <+: larger.types)
    (h : references.Known arena brought) : references.Known larger brought :=
  fun reference hmem => (h reference hmem).mono hgrown

theorem References.Known.lookup {references : References} {name : Text}
    (h : references.Known arena brought) (hentry : references.lookup name = some id) :
    arena.Knows brought id :=
  h (name, id) (mem_of_lookup hentry)

theorem Arena.exists_get?_arrayOver {element : TypeIndex} {dimensions : Nat}
    (h : (arena.arrayOver element dimensions).1 = .ok id) :
    ∃ type, (arena.arrayOver element dimensions).2.get? id = some type := by
  obtain ⟨hadmits, heq⟩ := exists_of_arrayOver h
  rw [heq] at h ⊢
  exact (hadmits.arrays h).imp fun _ => And.left

theorem LoaderSystem.knows_resolve {system : LoaderSystem} {name : Text}
    (hview : view.references.Known arena brought)
    (h : (system.resolve arena view name).answer = .ok (.found id)) :
    (system.resolve arena view name).arena.Knows brought id := by
  unfold resolve at h ⊢
  split at h
  · next hentry =>
    cases h
    exact hview.lookup hentry
  · split at h
    · cases h
    · generalize Target.ofName name = placed at h ⊢
      obtain ⟨dimensions, target⟩ := placed
      obtain ⟨element, -, heq⟩ := Outcome.exists_of_andThen h
      dsimp only at h heq ⊢
      rw [heq] at h ⊢
      split at h
      · cases h
      · obtain ⟨found, hfound, hid⟩ := exists_of_map_eq_ok h
        cases hid
        exact .inl (Arena.exists_get?_arrayOver (of_mapError_eq_ok hfound))

variable {loader : LoaderIndex} {resolver : Recorded LoaderSystem}

theorem LoaderSystem.grows_recorded : Resolver.Grows (Recorded LoaderSystem) :=
  fun recorded arena view name => LoaderSystem.grows recorded.inner arena view name

theorem knows_resolveElement (hstarts : Arena.fresh.types <+: arena.types)
    (hview : view.references.Known arena brought) {element : Element}
    (h : (resolveElement view loader element arena resolver).answer = .ok id) :
    (resolveElement view loader element arena resolver).arena.Knows brought id := by
  rw [resolveElement] at h ⊢
  cases hkind : element.kind with
  | primitive base =>
    rw [hkind] at h
    cases h
    exact Arena.knows_ofPrimitive hstarts base
  | void =>
    rw [hkind] at h
    cases h
    exact Arena.knows_void hstarts
  | reference name =>
    rw [hkind] at h
    obtain ⟨resolution, hresolution, heq⟩ := Outcome.exists_of_andThen h
    dsimp only [resolveReference]
    rw [heq]
    dsimp only [resolveReference] at h
    rw [heq] at h
    cases resolution with
    | found found =>
      cases h
      exact LoaderSystem.knows_resolve hview hresolution
    | missing missing =>
      exact .inl ⟨_, Arena.get?_intern (of_mapError_eq_ok h)⟩

theorem Signature.knows_build (hstarts : Arena.fresh.types <+: arena.types)
    (hview : view.references.Known arena brought) {descriptor : Descriptor}
    {signature : Signature} (h : (build view descriptor arena resolver).answer = .ok signature) :
    ∀ id ∈ signature.types, (build view descriptor arena resolver).arena.Knows brought id := by
  have hfilled := isFilled_of_build LoaderSystem.grows_recorded h
  obtain ⟨loader, ids, slots, result, _, _, rfl, -, rfl, hresult, hbuild⟩ := exists_of_build h
  have hgrown := (LoaderSystem.grows_recorded.within view).resolveParameters loader
    descriptor.parameters arena resolver
  have hlast := knows_resolveElement (hstarts.trans hgrown) (hview.mono hgrown) hresult
  rw [hbuild] at h hfilled ⊢
  rw [← Except.ok.inj h] at hfilled ⊢
  intro id hid
  rcases List.mem_append.mp hid with hparameter | hid
  · exact .inl (hfilled.issued id hparameter)
  · rw [List.mem_singleton.mp hid]
    exact hlast

namespace DescriptorCursor

/-- All that a cursor can give or make use of is known. -/
structure Known (cursor : DescriptorCursor) (arena : Arena) (brought : TypeIndex → Prop) :
    Prop where
  starts : Arena.fresh.types <+: arena.types
  references : cursor.view.references.Known arena brought
  resolved : ∀ id, cursor.resolved = some id → arena.Knows brought id

variable {cursor : DescriptorCursor}

theorem Known.current (h : cursor.Known arena brought) (resolver : Recorded LoaderSystem)
    (hid : (typeOf cursor.view cursor.loader cursor.resolved cursor.pending arena resolver).answer =
      .ok id) :
    (typeOf cursor.view cursor.loader cursor.resolved cursor.pending arena resolver).arena.Knows
      brought id := by
  unfold typeOf at hid ⊢
  split at hid
  · next hresolved =>
    cases hid
    exact h.resolved _ hresolved
  · cases hid
  · exact knows_resolveElement h.starts h.references hid

theorem Known.mono (hgrown : arena.types <+: larger.types) (h : cursor.Known arena brought) :
    cursor.Known larger brought where
  starts := h.starts.trans hgrown
  references := h.references.mono hgrown
  resolved id hid := (h.resolved id hid).mono hgrown

theorem Known.call (h : cursor.Known arena brought) (resolver : Recorded LoaderSystem)
    (call : Call) :
    (cursor.call arena resolver call).2.Known (cursor.call arena resolver call).1.arena brought ∧
      ∀ reply, (cursor.call arena resolver call).1.answer = .ok reply → ∀ id ∈ reply.numbers,
        (cursor.call arena resolver call).1.arena.Knows brought id := by
  cases call with
  | current =>
    have hgrown := (LoaderSystem.grows_recorded.within cursor.view).typeOf cursor.loader
      cursor.resolved cursor.pending arena resolver
    have hcurrent := fun id => @Known.current _ _ id _ h resolver
    unfold DescriptorCursor.call DescriptorCursor.current
    dsimp only
    generalize typeOf cursor.view cursor.loader cursor.resolved cursor.pending arena resolver =
      outcome at hgrown hcurrent ⊢
    obtain ⟨answer, larger, after⟩ := outcome
    cases answer with
    | error failure => exact ⟨h.mono hgrown, fun reply hreply => (by cases hreply)⟩
    | ok id =>
      have hknown : larger.Knows brought id := hcurrent id rfl
      refine ⟨⟨h.starts.trans hgrown, h.references.mono hgrown, fun other hother => ?_⟩,
        fun reply hreply => ?_⟩
      · cases hother
        exact hknown
      · cases hreply
        exact List.forall_mem_singleton.mpr hknown
  | advance =>
    unfold DescriptorCursor.call DescriptorCursor.advance
    dsimp only
    split
    · next after hafter =>
      split at hafter
      · cases hafter
      · cases hafter
        refine ⟨⟨h.starts, h.references, fun id hid => (by cases hid)⟩,
          fun reply hreply id hid => ?_⟩
        cases hreply
        cases hid
    · exact ⟨h, fun reply hreply => (by cases hreply)⟩
  | isExhausted | onReturn | symbol | typeCount | askedCount =>
    refine ⟨h, fun reply hreply id hid => ?_⟩
    cases hreply
    cases hid

theorem Known.run (h : cursor.Known arena brought) (calls : List Call) :
    ∀ reply, .ok reply ∈ (cursor.run arena resolver calls).1 → ∀ id ∈ reply.numbers,
      (cursor.run arena resolver calls).2.1.Knows brought id := by
  induction calls generalizing cursor arena resolver with
  | nil =>
    intro reply hreply
    cases hreply
  | cons first calls ih =>
    obtain ⟨hafter, hfirst⟩ := h.call resolver first
    have hgrown := Resolver.Within.run LoaderSystem.grows_recorded.within
      (cursor.call arena resolver first).2 calls (cursor.call arena resolver first).1.arena
      (cursor.call arena resolver first).1.resolver
    intro reply hreply id hid
    rcases List.mem_cons.mp hreply with hreply | hreply
    · exact (hfirst reply hreply.symm id hid).mono hgrown
    · exact ih hafter reply hreply id hid

theorem knows_walk (hstarts : Arena.fresh.types <+: arena.types)
    (hview : view.references.Known arena brought) {descriptor : Descriptor} {calls : List Call}
    {replies : List (Except Failure Reply)}
    (h : (walk view descriptor calls arena resolver).answer = .ok replies) :
    ∀ reply, .ok reply ∈ replies → ∀ id ∈ reply.numbers,
      (walk view descriptor calls arena resolver).arena.Knows brought id := by
  unfold walk start at h ⊢
  cases hloader : arena.accessingLoader view.accessing with
  | error fault =>
    rw [hloader] at h
    cases h
  | ok loader =>
    rw [hloader] at h
    cases h
    have hknown : Known ⟨view, loader, descriptor, descriptor.elements, none⟩ arena brought :=
      ⟨hstarts, hview, fun id hid => (by cases hid)⟩
    exact hknown.run calls

end DescriptorCursor

theorem Signature.mem_types_of_parameter {signature : Signature} {index : Nat}
    (h : signature.parameter index = .ok id) : id ∈ signature.types := by
  unfold parameter at h
  split at h
  · next hparameter =>
    cases h
    exact List.mem_append_left _ (List.mem_of_getElem? hparameter)
  · cases h

namespace SignatureCursor

variable {cursor after : SignatureCursor} {element : PlacedType}

theorem mem_types_of_current (h : cursor.current = .ok id) : id ∈ cursor.signature.types := by
  unfold current at h
  split at h
  · cases h
  · split at h
    · cases h
      exact List.mem_append_right _ List.mem_cons_self
    · exact Signature.mem_types_of_parameter h

theorem mem_types_of_next (h : cursor.next = some (element, after)) :
    element.type ∈ cursor.signature.types ∧ after.signature = cursor.signature := by
  unfold next at h
  split at h
  · next hcurrent hadvance =>
    cases h
    refine ⟨mem_types_of_current hcurrent, ?_⟩
    unfold advance at hadvance
    split at hadvance
    · cases hadvance
    · cases hadvance
      rfl
  · cases h

theorem mem_types_of_take (count : Nat) (cursor : SignatureCursor) :
    (∀ element ∈ (take count cursor).1, element.type ∈ cursor.signature.types) ∧
      (take count cursor).2.signature = cursor.signature := by
  induction count generalizing cursor with
  | zero => exact ⟨List.forall_mem_nil _, rfl⟩
  | succ count ih =>
    rw [take]
    split
    · exact ⟨List.forall_mem_nil _, rfl⟩
    · next element after hnext =>
      obtain ⟨helement, hsame⟩ := mem_types_of_next hnext
      obtain ⟨hrest, hlast⟩ := ih after
      rw [hsame] at hrest hlast
      exact ⟨List.forall_mem_cons.mpr ⟨helement, hrest⟩, hlast⟩

theorem mem_types_of_call (cursor : SignatureCursor) (call : Call) :
    (∀ reply, (cursor.call call).1 = .ok reply → ∀ id ∈ reply.numbers,
      id ∈ cursor.signature.types) ∧ (cursor.call call).2.signature = cursor.signature := by
  cases call with
  | current =>
    refine ⟨fun reply hreply => ?_, rfl⟩
    obtain ⟨found, hcurrent, rfl⟩ := exists_of_map_eq_ok hreply
    exact List.forall_mem_singleton.mpr (mem_types_of_current hcurrent)
  | advance =>
    unfold SignatureCursor.call SignatureCursor.advance
    dsimp only
    split
    · next hafter =>
      split at hafter
      · cases hafter
      · cases hafter
        refine ⟨fun reply hreply id hid => ?_, rfl⟩
        cases hreply
        cases hid
    · exact ⟨fun reply hreply => (by cases hreply), rfl⟩
  | next =>
    unfold SignatureCursor.call
    dsimp only
    split
    · next element after hnext =>
      obtain ⟨helement, hsame⟩ := mem_types_of_next hnext
      refine ⟨fun reply hreply => ?_, hsame⟩
      cases hreply
      exact List.forall_mem_singleton.mpr helement
    · refine ⟨fun reply hreply id hid => ?_, rfl⟩
      cases hreply
      cases hid
  | rest =>
    obtain ⟨helements, hsame⟩ := mem_types_of_take cursor.length cursor
    refine ⟨fun reply hreply id hid => ?_, hsame⟩
    cases hreply
    obtain ⟨element, helement, rfl⟩ := List.mem_map.mp hid
    exact helements element helement
  | isExhausted | onReturn | length =>
    refine ⟨fun reply hreply id hid => ?_, rfl⟩
    cases hreply
    cases hid

theorem mem_types_of_run (cursor : SignatureCursor) (calls : List Call) :
    ∀ reply, .ok reply ∈ cursor.run calls → ∀ id ∈ reply.numbers, id ∈ cursor.signature.types := by
  induction calls generalizing cursor with
  | nil =>
    intro reply hreply
    cases hreply
  | cons first calls ih =>
    obtain ⟨hfirst, hsame⟩ := cursor.mem_types_of_call first
    intro reply hreply id hid
    rcases List.mem_cons.mp hreply with hreply | hreply
    · exact hfirst reply hreply.symm id hid
    · rw [← hsame]
      exact ih _ reply hreply id hid

end SignatureCursor

namespace Workspace

/-- All numbers that a workspace keeps are known. -/
structure Known (workspace : Workspace) (brought : TypeIndex → Prop) : Prop where
  starts : Arena.fresh.types <+: workspace.session.arena.types
  tables : ∀ table ∈ workspace.tables, References.Known table.2 workspace.session.arena brought
  signatures : ∀ kept ∈ workspace.signatures, ∀ id ∈ kept.2.types,
    workspace.session.arena.Knows brought id

/-- What a command keeps and what its answer hands out is known. -/
structure Performed.Known (performed : Performed) (brought : TypeIndex → Prop) : Prop where
  after : performed.after.Known brought
  given : ∀ answer, performed.answer = .ok answer → ∀ id ∈ answer.numbers,
    performed.after.session.arena.Knows brought id

variable {workspace after : Workspace}

theorem Known.grow (h : workspace.Known brought)
    (hgrown : workspace.session.arena.types <+: after.session.arena.types)
    (htables : after.tables = workspace.tables)
    (hsignatures : after.signatures = workspace.signatures) : after.Known brought where
  starts := h.starts.trans hgrown
  tables table hmem := (h.tables table (htables ▸ hmem)).mono hgrown
  signatures kept hmem id hid := (h.signatures kept (hsignatures ▸ hmem) id hid).mono hgrown

theorem Known.withSystem (h : workspace.Known brought) (system : LoaderSystem) :
    Known { workspace with system := system } brought :=
  ⟨h.starts, h.tables, h.signatures⟩

theorem Known.withTable (h : workspace.Known brought) (name : Text) {references : References}
    (hreferences : references.Known workspace.session.arena brought) :
    Known { workspace with tables := (name, references) :: workspace.tables } brought :=
  ⟨h.starts, List.forall_mem_cons.mpr ⟨hreferences, h.tables⟩, h.signatures⟩

theorem Known.answer (h : workspace.Known brought) (answer : Answer)
    (hgiven : ∀ id ∈ answer.numbers, workspace.session.arena.Knows brought id) :
    (workspace.answer answer).Known brought where
  after := h
  given other hother := by
    cases hother
    exact hgiven

theorem Known.refuse (h : workspace.Known brought) (refusal : Refusal) :
    (workspace.refuse refusal).Known brought where
  after := h
  given other hother := by cases hother

theorem Known.ofFault (h : workspace.Known brought) {result : Except Fault Answer}
    (hgiven : ∀ answer, result = .ok answer → ∀ id ∈ answer.numbers,
      workspace.session.arena.Knows brought id) : (workspace.ofFault result).Known brought where
  after := h
  given answer hanswer := hgiven answer (of_mapError_eq_ok hanswer)

theorem Known.table (h : workspace.Known brought) (name : Option Text) :
    (workspace.table name).Known workspace.session.arena brought := by
  intro reference hmem
  unfold Workspace.table at hmem
  cases hbind : name.bind fun name => workspace.tables.lookup name with
  | none =>
    rw [hbind] at hmem
    cases hmem
  | some references =>
    rw [hbind] at hmem
    obtain ⟨name, -, hlookup⟩ := Option.bind_eq_some_iff.mp hbind
    exact h.tables _ (mem_of_lookup hlookup) reference hmem

theorem Known.withSignature (h : workspace.Known brought) {name : Text}
    {next : Signature → Performed}
    (hnext : ∀ signature, (∀ id ∈ signature.types, workspace.session.arena.Knows brought id) →
      (next signature).Known brought) : (workspace.withSignature name next).Known brought := by
  unfold Workspace.withSignature
  split
  · exact h.refuse _
  · next signature hlookup => exact hnext signature (h.signatures _ (mem_of_lookup hlookup))

theorem Known.withDescriptor (h : workspace.Known brought) {form : DescriptorForm}
    {next : Workspace → Descriptor → Performed}
    (hnext : ∀ after descriptor, after.session.arena = workspace.session.arena →
      after.Known brought → (next after descriptor).Known brought) :
    (workspace.withDescriptor form next).Known brought := by
  rcases withDescriptor_cases workspace form next with
    heq | ⟨after, descriptor, hstate, htables, hsignatures, heq⟩
  · rw [heq]
    exact h.refuse _
  · have harena : after.session.arena = workspace.session.arena := congrArg Prod.fst hstate
    rw [heq]
    have hgrown : workspace.session.arena.types <+: after.session.arena.types :=
      harena ▸ List.prefix_refl _
    exact hnext after descriptor harena (h.grow hgrown htables hsignatures)

theorem Known.resolving {α : Type} (h : workspace.Known brought)
    {call : Arena → Recorded LoaderSystem → Outcome (Recorded LoaderSystem) α}
    {finish : Workspace → α → Except Refusal Answer × Workspace}
    (hgrown : ∀ arena resolver, arena.types <+: (call arena resolver).arena.types)
    (hfinish : ∀ value after,
      (call workspace.session.arena ⟨workspace.system, []⟩).answer = .ok value →
      after.session.arena = (call workspace.session.arena ⟨workspace.system, []⟩).arena →
      after.Known brought →
      Performed.Known ⟨(finish after value).1, (finish after value).2, []⟩ brought) :
    (workspace.resolving call finish).Known brought := by
  unfold Workspace.resolving
  have hlarger := hgrown workspace.session.arena ⟨workspace.system, []⟩
  generalize call workspace.session.arena ⟨workspace.system, []⟩ = outcome at hlarger hfinish
  obtain ⟨answer, larger, resolver⟩ := outcome
  have hafter : Known { workspace.withArena larger with system := resolver.inner } brought :=
    h.grow hlarger rfl rfl
  cases answer with
  | error failure => exact ⟨hafter, fun answer hanswer => (by cases hanswer)⟩
  | ok value =>
    have hdone := hfinish value _ rfl rfl hafter
    exact ⟨hdone.after, hdone.given⟩

theorem numbers_of_summarize {signature : Signature} {answer : Answer}
    (h : workspace.summarize signature = .ok answer) : answer.numbers = signature.types := by
  unfold summarize at h
  split at h
  · cases h
    rfl
  · cases h

theorem Known.keep (h : workspace.Known brought) (name : Text) {signature : Signature}
    (hsignature : ∀ id ∈ signature.types, workspace.session.arena.Knows brought id) :
    Performed.Known ⟨(keep name workspace signature).1, (keep name workspace signature).2, []⟩
      brought := by
  unfold Workspace.keep
  split
  · next answer hsummary =>
    refine ⟨⟨h.starts, h.tables, List.forall_mem_cons.mpr ⟨hsignature, h.signatures⟩⟩, ?_⟩
    intro other hother id hid
    cases hother
    rw [numbers_of_summarize hsummary] at hid
    exact hsignature id hid
  · exact ⟨h, fun answer hanswer => (by cases hanswer)⟩

theorem Known.perform (h : workspace.Known brought) (command : Command)
    (hbrought : ∀ table name id, command = .addReference table name id →
      workspace.session.arena.Knows brought id) :
    (workspace.perform command).Known brought := by
  cases command with
  | primitive letter =>
    dsimp only [Workspace.perform]
    split
    · next base _ =>
      have hknown : workspace.session.arena.Knows brought (.ofPrimitive base) :=
        Arena.knows_ofPrimitive h.starts base
      exact h.answer (.type _) (List.forall_mem_singleton.mpr hknown)
    · exact h.refuse _
  | void =>
    have hknown : workspace.session.arena.Knows brought .void := Arena.knows_void h.starts
    exact h.answer (.type .void) (List.forall_mem_singleton.mpr hknown)
  | intern form =>
    dsimp only [Workspace.perform]
    split
    · exact h.refuse _
    · next type _ =>
      have hafter : (workspace.withArena (workspace.session.arena.intern type).2).Known brought :=
        h.grow (Arena.types_prefix_intern ..) rfl rfl
      refine hafter.ofFault fun answer hanswer => ?_
      obtain ⟨id, hid, rfl⟩ := exists_of_map_eq_ok hanswer
      exact List.forall_mem_singleton.mpr (.inl ⟨type, Arena.get?_intern hid⟩)
  | arrayOver element dimensions =>
    have hgrown := Lookups.types_prefix
      (LoaderSystem.arrayOver_lookups workspace.system workspace.session.arena element dimensions)
    have hafter : (workspace.withArena
        (workspace.session.arena.arrayOver element dimensions).2).Known brought :=
      h.grow hgrown rfl rfl
    refine hafter.ofFault fun answer hanswer => ?_
    obtain ⟨id, hid, rfl⟩ := exists_of_map_eq_ok hanswer
    exact List.forall_mem_singleton.mpr (.inl (Arena.exists_get?_arrayOver hid))
  | describe id =>
    refine h.ofFault fun answer hanswer => ?_
    unfold describe at hanswer
    split at hanswer
    · cases hanswer
      exact List.forall_mem_nil _
    all_goals cases hanswer
  | descriptor id =>
    refine h.ofFault fun answer hanswer => ?_
    obtain ⟨text, -, rfl⟩ := exists_of_map_eq_ok hanswer
    exact List.forall_mem_nil _
  | definingLoader id =>
    refine h.ofFault fun answer hanswer => ?_
    obtain ⟨loader, -, rfl⟩ := exists_of_map_eq_ok hanswer
    exact List.forall_mem_nil _
  | symbol text =>
    exact h.withDescriptor fun after descriptor _ hafter =>
      hafter.answer (.text descriptor.text) (List.forall_mem_nil _)
  | addLoader path parent =>
    dsimp only [Workspace.perform]
    split
    · exact h.refuse _
    · exact (h.withSystem _).answer (.loader _) (List.forall_mem_nil _)
  | insertClass tag name => exact (h.withSystem _).answer .done (List.forall_mem_nil _)
  | writeFile path content => exact (h.withSystem _).answer .done (List.forall_mem_nil _)
  | removeFile path => exact (h.withSystem _).answer .done (List.forall_mem_nil _)
  | findClass id name =>
    dsimp only [Workspace.perform]
    split
    · exact h.refuse _
    · next loader _ =>
      refine ⟨h.withSystem _, fun answer hanswer => ?_⟩
      obtain ⟨info, -, rfl⟩ := exists_of_map_eq_ok (of_mapError_eq_ok hanswer)
      exact List.forall_mem_nil _
  | newTable table =>
    have hempty : References.Known [] workspace.session.arena brought := List.forall_mem_nil _
    exact (h.withTable table hempty).answer .done (List.forall_mem_nil _)
  | addReference table name id =>
    dsimp only [Workspace.perform]
    split
    · exact h.refuse _
    · next references hlookup =>
      have hlonger : (references.insert name id).Known workspace.session.arena brought :=
        List.forall_mem_cons.mpr ⟨hbrought table name id rfl, h.tables _ (mem_of_lookup hlookup)⟩
      exact (h.withTable table hlonger).answer .done (List.forall_mem_nil _)
  | lookUp table name =>
    refine h.answer _ fun id hid => ?_
    exact (h.table table).lookup (Option.mem_toList.mp hid)
  | resolve view name =>
    dsimp only [Workspace.perform]
    refine h.resolving (fun arena resolver => LoaderSystem.grows_recorded resolver arena _ name)
      fun resolution after hresolution harena hafter => ?_
    refine ⟨hafter, fun answer hanswer id hid => ?_⟩
    cases hanswer
    cases resolution with
    | missing missing => cases hid
    | found found =>
      rw [List.mem_singleton.mp hid]
      dsimp only
      rw [harena]
      exact LoaderSystem.knows_resolve (h.table view.table) hresolution
  | build name view form =>
    refine h.withDescriptor fun workspace descriptor _ h => ?_
    refine h.resolving
      (fun arena resolver =>
        (LoaderSystem.grows_recorded.within _).build descriptor arena resolver)
      fun signature after hsignature harena hafter => hafter.keep name fun id hid => ?_
    rw [harena]
    exact Signature.knows_build h.starts (h.table view.table) hsignature id hid
  | summarize name =>
    refine h.withSignature fun signature hsignature => ⟨h, fun answer hanswer id hid => ?_⟩
    rw [numbers_of_summarize hanswer] at hid
    exact hsignature id hid
  | parameterAt name index =>
    refine h.withSignature fun signature hsignature => h.ofFault fun answer hanswer => ?_
    obtain ⟨id, hparameter, rfl⟩ := exists_of_map_eq_ok hanswer
    have hmem := Signature.mem_types_of_parameter hparameter
    exact List.forall_mem_singleton.mpr (hsignature id hmem)
  | compare first second =>
    exact h.withSignature fun _ _ => h.withSignature fun _ _ =>
      h.answer (.flag _) (List.forall_mem_nil _)
  | distinct names =>
    dsimp only [Workspace.perform]
    split
    · exact h.refuse _
    · exact h.answer (.flags _) (List.forall_mem_nil _)
  | matchDescriptor name view form skipped =>
    refine h.withSignature fun signature _ => h.withDescriptor fun workspace descriptor _ h => ?_
    refine h.resolving (fun arena resolver => Resolver.Within.matchDescriptor
      LoaderSystem.grows_recorded.within signature _ descriptor skipped arena resolver)
      fun _ after _ _ hafter => ?_
    refine ⟨hafter, fun answer hanswer id hid => ?_⟩
    cases hanswer
    cases hid
  | walkSignature name calls =>
    refine h.withSignature fun signature hsignature => h.answer _ fun id hid => ?_
    obtain ⟨reply, hreply, hid⟩ := exists_of_mem_numbersIn hid
    exact hsignature id (SignatureCursor.mem_types_of_run _ calls reply hreply id hid)
  | walkDescriptor view form calls =>
    refine h.withDescriptor fun workspace descriptor _ h => ?_
    refine h.resolving (fun arena resolver => Resolver.Within.walk
      LoaderSystem.grows_recorded.within _ descriptor calls arena resolver)
      fun replies after hreplies harena hafter => ?_
    refine ⟨hafter, fun answer hanswer id hid => ?_⟩
    cases hanswer
    obtain ⟨reply, hreply, hid⟩ := exists_of_mem_numbersIn hid
    dsimp only
    rw [harena]
    exact DescriptorCursor.knows_walk h.starts (h.table view.table) hreplies reply hreply id hid

theorem Known.step (h : workspace.Known brought) (command : Command)
    (hbrought : ∀ table name id, command = .addReference table name id →
      workspace.session.arena.Knows brought id) :
    (workspace.step command).2.Known brought ∧
      ∀ answer, (workspace.step command).1.answer = .ok answer → ∀ id ∈ answer.numbers,
        (workspace.step command).2.session.arena.Knows brought id := by
  have hquiet := h.withSystem { workspace.system with probes := [] }
  have hperformed := hquiet.perform command hbrought
  exact ⟨hperformed.after, hperformed.given⟩

theorem known_start (files : FileTree) (bootstrap : ClassPath) :
    (start files bootstrap).Known brought :=
  ⟨List.prefix_refl _, List.forall_mem_nil _, List.forall_mem_nil _⟩

theorem Known.run (h : workspace.Known brought) (commands : List Command)
    (hbrought : ∀ before table name id rest,
      commands = before ++ .addReference table name id :: rest →
      (workspace.run before).2.session.arena.Knows brought id) :
    ∀ report ∈ (workspace.run commands).1, ∀ answer, report.answer = .ok answer →
      ∀ id ∈ answer.numbers, id.toNat < report.typeCount ∨ brought id := by
  induction commands generalizing workspace with
  | nil => exact List.forall_mem_nil _
  | cons command rest ih =>
    obtain ⟨hafter, hgiven⟩ := h.step command fun table name id hcommand =>
      hbrought [] table name id rest (congrArg (· :: rest) hcommand)
    refine List.forall_mem_cons.mpr ⟨fun answer hanswer id hid => ?_, ?_⟩
    · rcases hgiven answer hanswer id hid with ⟨type, htype⟩ | hid
      · exact .inl (Arena.lt_size_of_get? htype)
      · exact .inr hid
    · exact ih hafter fun before table name id later hsplit =>
        hbrought (command :: before) table name id later (congrArg (command :: ·) hsplit)

end Workspace

end MethodLinkage
