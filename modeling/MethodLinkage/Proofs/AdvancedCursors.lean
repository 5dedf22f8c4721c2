import MethodLinkage.Proofs.FirstDifference

/-!
# Advanced cursors

A cursor that has moved on never matches a signature, also where the elements it has left have the
types that the signature begins with. The return elements of the two are out of step by as many
elements as the cursor has moved, so one of the two is on its return element, or behind it, before
the other is. That is noticed before the type there is asked for, so a return element never is.
-/

namespace MethodLinkage

open DescriptorCursor (Call)

variable {ρ σ : Type} [Resolver ρ] [Resolver σ] {view : Viewpoint} {loader : LoaderIndex}

/-- The resolver fails for a name, or there is no number for the placeholder of a missing class. -/
def FailsFor (loader : LoaderIndex) (answered : Outcome ρ Resolution) (failure : Failure) : Prop :=
  answered.answer = .error failure ∨ ∃ name, answered.answer = .ok (.missing name) ∧
    (answered.arena.intern (.placeholder name loader)).1 = .error .arenaFull ∧
    failure = .fault .arenaFull

theorem exists_resolve_of_resolveElement {element : Element} {arena : Arena} {resolver : ρ}
    {failure : Failure}
    (h : (resolveElement view loader element arena resolver).answer = .error failure) :
    ∃ name, element.kind = .reference name ∧
      FailsFor loader (Resolver.resolve resolver arena view name) failure := by
  obtain ⟨name, hkind⟩ := exists_name_of_resolveElement h
  rw [resolveElement, hkind] at h
  dsimp only [resolveReference] at h
  refine ⟨name, hkind, ?_⟩
  generalize Resolver.resolve resolver arena view name = outcome at h ⊢
  obtain ⟨cause | _ | missing, later, after⟩ := outcome
  · cases h
    exact .inl rfl
  · cases h
  · refine .inr ⟨missing, rfl, ?_⟩
    dsimp only [Outcome.andThen, Outcome.ofArena] at h
    rcases Interned.ok_or_runsOut_intern later (.placeholder missing loader) with ⟨id, hid⟩ | hout
    · rw [hid] at h
      cases h
    · rw [hout.answer] at h
      cases h
      exact ⟨hout.answer, rfl⟩

theorem Resolver.Within.resolveEach {reaches : Arena × ρ → Arena × ρ → Prop}
    (h : Within ρ view reaches) (loader : LoaderIndex) (elements : List Element) (arena : Arena)
    (resolver : ρ) :
    reaches (arena, resolver) (resolveEach view loader elements arena resolver).left := by
  induction elements generalizing arena resolver with
  | nil => exact h.refl _
  | cons element elements ih =>
    refine h.andThen (h.resolveElement ..) fun id arena resolver => ?_
    exact h.andThen (ih arena resolver) fun _ _ _ => h.refl _

theorem LoaderSystem.size_resolveEach_le (system : LoaderSystem) (asked : List Text)
    {arena : Arena} (hvalid : arena.Valid)
    (hloader : arena.definingLoader view.accessing = .ok (some loader)) (elements : List Element) :
    (resolveEach view loader elements arena
        (⟨system, asked⟩ : Recorded LoaderSystem)).arena.size ≤
      arena.size + Element.typeCount elements := by
  induction elements generalizing system asked arena with
  | nil => exact Nat.le_refl _
  | cons element rest ih =>
    have hsize := system.size_placeElement_le view loader element arena
    have hgrown := system.types_prefix_placeElement view loader element arena
    have hlarger := valid_placeElement hvalid system view loader element
    obtain ⟨after, -, helement⟩ := resolveElement_spec system asked hvalid hloader element
    rw [resolveEach, helement, Element.typeCount, List.map_cons, List.sum_cons,
      ← Element.typeCount]
    generalize system.placeElement view loader element arena = placed at hsize hgrown hlarger ⊢
    obtain ⟨_ | id, middle⟩ := placed
    · exact Nat.le_trans hsize (Nat.add_le_add_left (Nat.le_add_right ..) _)
    · have hrest := ih after (asked ++ element.kind.name?.toList) hlarger
        (Arena.definingLoader_mono hgrown hloader)
      dsimp only [Outcome.andThen]
      generalize resolveEach view loader rest middle
        (⟨after, asked ++ element.kind.name?.toList⟩ : Recorded LoaderSystem) = later at hrest ⊢
      obtain ⟨_ | ids, last, final⟩ := later
      · dsimp only at hrest hsize ⊢
        omega
      · dsimp only [Outcome.ok] at hrest hsize ⊢
        omega

namespace CursorState

theorem cursor_after (state : CursorState ρ) (call : Call) :
    ∃ resolved, (state.after call).cursor = { state.cursor with
      pending := state.cursor.pending.drop (if call = .advance then 1 else 0)
      resolved := resolved } := by
  cases call with
  | current =>
    unfold after DescriptorCursor.call DescriptorCursor.current DescriptorCursor.keep
    dsimp only
    split
    · exact ⟨_, rfl⟩
    · exact ⟨_, rfl⟩
  | advance =>
    rcases advance_cases state with ⟨hpending, -, hafter⟩ | ⟨placed, rest, hpending, -, hafter⟩
    · rw [hafter, hpending, if_pos rfl, List.drop_nil, ← hpending]
      exact ⟨_, rfl⟩
    · rw [hafter, hpending]
      exact ⟨none, rfl⟩
  | isExhausted | onReturn | symbol | typeCount | askedCount => exact ⟨_, rfl⟩

theorem cursor_afterAll (state : CursorState ρ) (calls : List Call) :
    ∃ resolved, (state.afterAll calls).cursor = { state.cursor with
      pending := state.cursor.pending.drop (calls.count .advance)
      resolved := resolved } := by
  induction calls generalizing state with
  | nil => exact ⟨_, rfl⟩
  | cons call rest ih =>
    obtain ⟨_, hcall⟩ := cursor_after state call
    obtain ⟨resolved, hrest⟩ := ih (state.after call)
    refine ⟨resolved, ?_⟩
    rw [afterAll, List.foldl_cons, ← afterAll, hrest, hcall, List.count_cons]
    simp only [List.drop_drop, beq_iff_eq, Nat.add_comm]

end CursorState

theorem Descriptor.typeCount_drop_le (descriptor : Descriptor) (count : Nat) :
    Element.typeCount ((descriptor.parameters.drop count).map .field) ≤
      descriptor.text.length := by
  have hcount := descriptor.typeCount_bare_lt
  rw [bare, Element.typeCount_append] at hcount
  have hsplit : descriptor.parameters.map Element.field =
      (descriptor.parameters.take count).map .field ++
        (descriptor.parameters.drop count).map .field := by
    rw [← List.map_append, List.take_append_drop]
  rw [hsplit, Element.typeCount_append] at hcount
  omega

theorem Descriptor.drop_elements {descriptor : Descriptor} {count : Nat}
    (h : count ≤ descriptor.parameters.length) :
    descriptor.elements.drop count =
      (descriptor.parameters.drop count).map (fun type => ⟨.field type, false⟩) ++
        [⟨descriptor.result, true⟩] := by
  rw [elements, List.drop_append_of_le_length, List.map_drop]
  rwa [List.length_map]

namespace Signature

/-- A comparison that never comes to hold. Elements in a row were asked about; then it ended, or
the last of them failed and was left as it had failed. -/
def Rejects (view : Viewpoint) (loader : LoaderIndex) (elements : List Element) (arena : Arena)
    (resolver : Recorded ρ) (matched : Outcome (Recorded ρ) Bool) : Prop :=
  ∃ asked, asked <:+: elements ∧
    matched.resolver.asked = resolver.asked ++ Element.names asked ∧
    (matched.answer = .ok false ∨ ∃ passed element name failure, asked = passed ++ [element] ∧
      element.kind = .reference name ∧
      let before := resolveEach view loader passed arena resolver
      let last := resolveElement view loader element before.arena before.resolver
      FailsFor loader (Resolver.resolve before.resolver before.arena view name) failure ∧
        matched.answer = .error failure ∧ last.answer = .error failure ∧
        matched.arena = last.arena)

variable {types : List TypeIndex} {elements : List Element} {arena : Arena}
  {resolver : Recorded ρ} {matched : Outcome (Recorded ρ) Bool}

theorem Rejects.mono {larger : List Element} (hpart : elements <:+: larger)
    (h : Rejects view loader elements arena resolver matched) :
    Rejects view loader larger arena resolver matched := by
  obtain ⟨asked, hasked, h⟩ := h
  exact ⟨asked, hasked.trans hpart, h⟩

theorem rejects_false (view : Viewpoint) (loader : LoaderIndex) (elements : List Element)
    (arena : Arena) (resolver : Recorded ρ) :
    Rejects view loader elements arena resolver (.ok false arena resolver) :=
  ⟨[], List.nil_infix, (List.append_nil _).symm, .inl rfl⟩

theorem StopsAt.rejects {passed : List Element} {element : Element}
    (h : StopsAt view loader types elements arena resolver matched passed element) :
    Rejects view loader elements arena resolver matched := by
  have hasked := h.asked
  obtain ⟨left, _, _, _, rfl, -, -, -, hmatched⟩ := h
  refine ⟨passed ++ [element], ⟨[], left, by simp⟩, hasked, ?_⟩
  cases htried : (resolveElement view loader element
    (resolveEach view loader passed arena resolver).arena
    (resolveEach view loader passed arena resolver).resolver).answer with
  | ok id =>
    rw [hmatched, htried]
    exact .inl rfl
  | error failure =>
    obtain ⟨name, hkind, hresolve⟩ := exists_resolve_of_resolveElement htried
    refine .inr ⟨passed, element, name, failure, rfl, hkind, hresolve, ?_, htried, ?_⟩
    · rw [hmatched, htried]
      rfl
    · rw [hmatched]

section

variable {ids : List TypeIndex} {parameters : List FieldType}

theorem matchPending_rejects_of_unknown (hlength : ids.length = parameters.length)
    (own : TypeIndex) (others : List PlacedType) (result : Element) (arena : Arena)
    (resolver : Recorded ρ) :
    Rejects view loader (parameters.map .field) arena resolver
      (matchPending view loader (ids.map (⟨·, false⟩) ++ ⟨own, false⟩ :: others)
        (parameters.map (fun type => ⟨.field type, false⟩) ++ [⟨result, true⟩]) none arena
        resolver) := by
  have hreturns : (ids.map fun id => (⟨id, false⟩ : PlacedType)).map (·.isReturn) =
      (parameters.map fun type => (⟨.field type, false⟩ : PlacedElement)).map (·.isReturn) := by
    simp [Function.comp_def, hlength]
  have hscan := @matchPending_append (Recorded ρ) _ view loader _ _ hreturns
    (⟨own, false⟩ :: others) [⟨result, true⟩] arena resolver
  simp only [List.map_map, Function.comp_def, List.map_id'] at hscan
  rcases hscan with ⟨hsame, hgoes⟩ | ⟨_, _, hstops⟩
  · rw [hgoes]
    exact ⟨_, List.infix_refl _, Recorded.asked_resolveEach hsame, .inl rfl⟩
  · exact hstops.rejects

theorem matchPending_rejects (hlength : ids.length = parameters.length) (own : TypeIndex)
    (others : List PlacedType) (result : Element) (known : Option TypeIndex) (arena : Arena)
    (resolver : Recorded ρ) :
    Rejects view loader (parameters.map .field) arena resolver
      (matchPending view loader (ids.map (⟨·, false⟩) ++ ⟨own, false⟩ :: others)
        (parameters.map (fun type => ⟨.field type, false⟩) ++ [⟨result, true⟩]) known arena
        resolver) := by
  rcases known with _ | id
  · exact matchPending_rejects_of_unknown hlength own others result arena resolver
  · cases parameters with
    | nil =>
      obtain rfl := List.length_eq_zero_iff.mp hlength
      exact rejects_false ..
    | cons type parameters =>
      obtain ⟨first, ids, rfl⟩ := List.exists_cons_of_length_eq_add_one hlength
      simp only [List.map_cons, List.cons_append]
      rw [matchPending, if_neg (not_not.mpr rfl), DescriptorCursor.typeOf, Outcome.andThen_ok]
      split
      · have hrest : Rejects view loader (parameters.map .field) arena resolver _ :=
          matchPending_rejects_of_unknown (Nat.succ.inj hlength) own others result arena resolver
        exact hrest.mono ⟨[.field type], [], by simp⟩
      · exact rejects_false ..

end

theorem exists_elements_split (signature : Signature) {count : Nat}
    (h : count < signature.parameters.length) :
    ∃ own others, signature.elements =
      (signature.parameters.take count).map (⟨·, false⟩) ++ ⟨own, false⟩ :: others := by
  obtain ⟨own, rest, hrest⟩ :=
    List.exists_cons_of_ne_nil (mt List.drop_eq_nil_iff.mp (Nat.not_le_of_lt h))
  refine ⟨own, rest.map (⟨·, false⟩) ++ [⟨signature.result, true⟩], ?_⟩
  calc signature.elements
    _ = (signature.parameters.take count ++ signature.parameters.drop count).map (⟨·, false⟩) ++
        [⟨signature.result, true⟩] := by rw [List.take_append_drop, elements]
    _ = _ := by rw [hrest, List.map_append, List.map_cons, List.append_assoc, List.cons_append]

theorem matchCursor_rejects {signature : Signature}
    (hlength : signature.parameters.length = signature.descriptor.parameters.length)
    {advanced : Nat} (hadvanced : 0 < advanced) (descriptor : Descriptor)
    (known : Option TypeIndex) (arena : Arena) (resolver : Recorded ρ) :
    Rejects view loader ((descriptor.parameters.drop advanced).map .field) arena resolver
      (signature.matchCursor ⟨view, loader, descriptor, descriptor.elements.drop advanced, known⟩
        arena resolver) := by
  rw [matchCursor_eq]
  split
  · next hsame =>
    obtain rfl : signature.descriptor = descriptor := hsame
    dsimp only
    by_cases hleft : advanced ≤ signature.descriptor.parameters.length
    · -- the signature has this parameter where the cursor is on its return element
      have hlt : signature.parameters.length - advanced < signature.parameters.length := by omega
      obtain ⟨own, others, howns⟩ := signature.exists_elements_split hlt
      rw [Descriptor.drop_elements hleft, howns]
      refine matchPending_rejects ?_ ..
      rw [List.length_take, List.length_drop]
      omega
    · have hpending : signature.descriptor.elements.drop advanced = [] := by
        rw [List.drop_eq_nil_iff, Descriptor.elements, List.length_append, List.length_map]
        exact Nat.lt_of_not_le hleft
      have howns : signature.elements.isEmpty = false := by
        simp [elements]
      rw [hpending, matchPending, howns]
      exact rejects_false ..
  · exact rejects_false ..

theorem Rejects.runsOut {resolver : Recorded LoaderSystem}
    {matched : Outcome (Recorded LoaderSystem) Bool} {fault : Fault} (hvalid : arena.Valid)
    (hloader : arena.definingLoader view.accessing = .ok (some loader))
    (h : Rejects view loader elements arena resolver matched)
    (hfault : matched.answer = .error (.fault fault)) :
    arena.RunsOut (Element.typeCount elements) (.fault .arenaFull)
      (matched.answer, matched.arena) := by
  obtain ⟨asked, ⟨earlier, later, rfl⟩, -,
    hfalse | ⟨passed, element, _, failure, rfl, -, -, hfailure, hlast, harena⟩⟩ := h
  · rw [hfalse] at hfault
    cases hfault
  · rw [hfailure] at hfault
    cases hfault
    obtain ⟨system, names⟩ := resolver
    have hbefore := LoaderSystem.size_resolveEach_le system names hvalid hloader passed
    have hlookups : Lookups (arena, system) (_, _) :=
      (LoaderSystem.lookups_within view).recorded.resolveEach loader passed arena ⟨system, names⟩
    dsimp only [Outcome.left] at hlookups
    generalize resolveEach view loader passed arena
      (⟨system, names⟩ : Recorded LoaderSystem) = before at hbefore hlookups hlast harena
    obtain ⟨_, larger, reached, more⟩ := before
    dsimp only at hbefore hlookups hlast harena
    obtain ⟨after, -, helement⟩ := LoaderSystem.resolveElement_spec reached more
      (hlookups.valid hvalid) (Arena.definingLoader_mono hlookups.types_prefix hloader) element
    rw [helement] at hlast harena
    dsimp only at hlast harena
    obtain ⟨hanswer, hfull, hroom⟩ :=
      (LoaderSystem.runsOut_of_placeElement hlast).of_larger hbefore
    rw [hfailure, harena]
    cases hlast.symm.trans hanswer
    refine ⟨rfl, hfull, fun hfits => hroom (hfits.mono ?_)⟩
    simp only [Element.typeCount_append]
    have hone : Element.typeCount [element] = element.dimensions + 1 := rfl
    omega

theorem rejects_afterAll {signature : Signature}
    (hlength : signature.parameters.length = signature.descriptor.parameters.length)
    {descriptor : Descriptor} {cursor : DescriptorCursor}
    (hcursor : cursor = ⟨view, cursor.loader, descriptor, descriptor.elements, none⟩)
    {calls : List Call} (hadvanced : .advance ∈ calls) (arena : Arena) (resolver : Recorded ρ) :
    let state := (⟨cursor, arena, resolver⟩ : CursorState ρ).afterAll calls
    state.cursor.pending = descriptor.elements.drop (calls.count .advance) ∧
    Rejects view cursor.loader ((descriptor.parameters.drop (calls.count .advance)).map .field)
      state.arena state.resolver
      (signature.matchCursor state.cursor state.arena state.resolver) := by
  intro state
  obtain ⟨known, hstate⟩ := CursorState.cursor_afterAll ⟨cursor, arena, resolver⟩ calls
  have hafter : state.cursor = ⟨view, cursor.loader, descriptor,
      descriptor.elements.drop (calls.count .advance), known⟩ := by
    refine hstate.trans ?_
    rw [hcursor]
  rw [hafter]
  exact ⟨rfl, matchCursor_rejects hlength (List.count_pos_iff.mpr hadvanced) ..⟩

/-- Whatever calls have moved a cursor on, matching it with a built signature gives false or fails
as the resolver did for the last of some parameters in a row; the return element is not among
them. Through loaders the only fault is that the numbers run out, where there are fewer left than
the descriptor's text has characters. -/
theorem advanced_cursor_never_matches {first : Viewpoint} {own : Descriptor} {earlier : Arena}
    {former : σ} {signature : Signature}
    (hbuilt : (build first own earlier former).answer = .ok signature) {view : Viewpoint}
    {descriptor : Descriptor} {arena : Arena} {cursor : DescriptorCursor}
    (hstart : DescriptorCursor.start view descriptor arena = .ok cursor) (calls : List Call)
    (hadvanced : .advance ∈ calls) :
    (∀ resolver : Recorded ρ,
      let state := (⟨cursor, arena, resolver⟩ : CursorState ρ).afterAll calls
      state.cursor.pending = descriptor.elements.drop (calls.count .advance) ∧
      Rejects view cursor.loader ((descriptor.parameters.drop (calls.count .advance)).map .field)
        state.arena state.resolver
        (signature.matchCursor state.cursor state.arena state.resolver)) ∧
    (arena.Reached → ∀ resolver : Recorded LoaderSystem, ∀ fault,
      let state := (⟨cursor, arena, resolver⟩ : CursorState LoaderSystem).afterAll calls
      let matched := signature.matchCursor state.cursor state.arena state.resolver
      matched.answer = .error (.fault fault) →
        state.arena.RunsOut descriptor.text.length (.fault .arenaFull)
          (matched.answer, matched.arena)) := by
  obtain ⟨hcursor, haccessing⟩ := DescriptorCursor.eq_of_start hstart
  have hlength := length_of_build hbuilt
  refine ⟨fun resolver => rejects_afterAll hlength hcursor hadvanced arena resolver,
    fun harena resolver fault => ?_⟩
  intro state matched hfault
  obtain ⟨-, hrejects⟩ := rejects_afterAll hlength hcursor hadvanced arena resolver
  have hlookups : Lookups (arena, resolver.inner) (state.arena, state.resolver.inner) := by
    have hrun := Resolver.Within.run (fun view => (LoaderSystem.lookups_within view).recorded)
      cursor calls arena resolver
    rwa [CursorState.run_eq ⟨cursor, arena, resolver⟩ calls] at hrun
  have hloader := LoaderSystem.definingLoader_of_accessingLoader haccessing
  exact (hrejects.runsOut (hlookups.valid harena.valid)
    (Arena.definingLoader_mono hlookups.types_prefix hloader) hfault).mono
      (descriptor.typeCount_drop_le _)

def threeShared : Descriptor :=
  ⟨[.ofClass Workspace.shared, .ofClass Workspace.shared], .field (.ofClass Workspace.shared)⟩

/-- The elements left have the types that the signature begins with, and the first of them is known
to. The second is the return element, and is not asked for. -/
theorem leading_types_do_not_match :
    let built := build ⟨⟨9⟩, []⟩ threeShared Workspace.siblings.session.arena
      Workspace.siblings.system
    let calls : List Call := [.advance, .current]
    ∃ signature cursor, built.answer = .ok signature ∧
      DescriptorCursor.start ⟨⟨9⟩, []⟩ threeShared Workspace.siblings.session.arena = .ok cursor ∧
      .advance ∈ calls ∧ Workspace.siblings.session.arena.Reached ∧
      let state := CursorState.afterAll
        (⟨cursor, Workspace.siblings.session.arena, ⟨Workspace.siblings.system, []⟩⟩ :
          CursorState LoaderSystem) calls
      let matched := signature.matchCursor state.cursor state.arena state.resolver
      state.cursor.pending = threeShared.elements.drop 1 ∧ matched.answer = .ok false ∧
        state.resolver.asked = [['p', '/', 'A']] ∧ matched.resolver.asked = [['p', '/', 'A']] ∧
        Rejects ⟨⟨9⟩, []⟩ cursor.loader [.field (.ofClass Workspace.shared)] state.arena
          state.resolver matched ∧
        ∀ fault, matched.answer ≠ .error (.fault fault) := by
  intro built calls
  have hbuilt : built.answer = .ok ⟨threeShared, ⟨9⟩, [⟨12⟩, ⟨12⟩], ⟨12⟩, 2⟩ := rfl
  have hstart : DescriptorCursor.start ⟨⟨9⟩, []⟩ threeShared Workspace.siblings.session.arena =
      .ok ⟨⟨⟨9⟩, []⟩, ⟨1⟩, threeShared, threeShared.elements, none⟩ := rfl
  have hadvanced : .advance ∈ calls := by decide
  have harena : Workspace.siblings.session.arena.Reached :=
    ⟨Workspace.siblings, Workspace.siblings_reached, rfl⟩
  obtain ⟨hrejects, hfault⟩ : (∀ resolver : Recorded LoaderSystem, _) ∧ _ :=
    advanced_cursor_never_matches hbuilt hstart calls hadvanced
  obtain ⟨hpending, hrejects⟩ := hrejects ⟨Workspace.siblings.system, []⟩
  refine ⟨_, _, hbuilt, hstart, hadvanced, harena, hpending, rfl, rfl, rfl, hrejects, ?_⟩
  exact fun fault h => (hfault harena _ fault h).noRoom (show Arena.size _ + _ ≤ numberLimit by decide)

end Signature
end MethodLinkage
