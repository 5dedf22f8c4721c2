import MethodLinkage.Proofs.BuildOutcome
import MethodLinkage.Proofs.LazyCursors
import MethodLinkage.Proofs.LazyMatching

/-!
# The first difference

Matching resolves no more than it needs: the elements in order, up to and including the first that
fails or has another type than the signature. What comes after it is not asked for and adds no
type. Where the descriptors differ already, nothing is resolved at all.
-/

namespace MethodLinkage

variable {ρ σ : Type} [Resolver ρ] [Resolver σ]

def resolveEach (view : Viewpoint) (loader : LoaderIndex) :
    List Element → Arena → ρ → Outcome ρ (List TypeIndex)
  | [], arena, resolver => .ok [] arena resolver
  | element :: elements, arena, resolver =>
    (resolveElement view loader element arena resolver).andThen fun id arena resolver =>
      (resolveEach view loader elements arena resolver).andThen fun ids => .ok (id :: ids)

section

variable {view : Viewpoint} {loader : LoaderIndex} {element : Element} {elements : List Element}
  {arena : Arena} {resolver : ρ} {id : TypeIndex}

theorem resolveEach_cons_of_ok
    (h : (resolveElement view loader element arena resolver).answer = .ok id)
    (elements : List Element) :
    resolveEach view loader (element :: elements) arena resolver =
      (resolveEach view loader elements (resolveElement view loader element arena resolver).arena
        (resolveElement view loader element arena resolver).resolver).andThen
          fun ids => .ok (id :: ids) := by
  rw [resolveEach, Outcome.andThen, h]

theorem Recorded.asked_resolveEach {recorded : Recorded ρ} {ids : List TypeIndex}
    (h : (resolveEach view loader elements arena recorded).answer = .ok ids) :
    (resolveEach view loader elements arena recorded).resolver.asked =
      recorded.asked ++ Element.names elements := by
  induction elements generalizing arena recorded ids with
  | nil => exact (List.append_nil _).symm
  | cons element elements ih =>
    obtain ⟨id, hid, -⟩ := Outcome.exists_of_andThen h
    rw [resolveEach_cons_of_ok hid] at h ⊢
    obtain ⟨others, hothers, hrest⟩ := Outcome.exists_of_andThen h
    rw [hrest, Element.names_cons, ← List.append_assoc, ← asked_resolveElement view loader element
      arena recorded]
    exact ih hothers

end

namespace Signature

/-- Comparing types with elements stops before all are compared: those passed have the same types,
and the next fails or has another type. -/
def StopsAt (view : Viewpoint) (loader : LoaderIndex) (types : List TypeIndex)
    (elements : List Element) (arena : Arena) (resolver : ρ) (matched : Outcome ρ Bool)
    (passed : List Element) (element : Element) : Prop :=
  ∃ left same own others, elements = passed ++ element :: left ∧ types = same ++ own :: others ∧
    let before := resolveEach view loader passed arena resolver
    let tried := resolveElement view loader element before.arena before.resolver
    before.answer = .ok same ∧ tried.answer ≠ .ok own ∧
      matched = ⟨tried.answer.map fun _ => false, tried.arena, tried.resolver⟩

variable {view : Viewpoint} {loader : LoaderIndex} {types : List TypeIndex}
  {elements passed : List Element} {element : Element} {arena : Arena} {resolver : ρ}
  {id : TypeIndex} {matched : Outcome ρ Bool}

theorem StopsAt.cons (hid : (resolveElement view loader element arena resolver).answer = .ok id)
    {stopping : Element}
    (h : StopsAt view loader types elements
      (resolveElement view loader element arena resolver).arena
      (resolveElement view loader element arena resolver).resolver matched passed stopping) :
    StopsAt view loader (id :: types) (element :: elements) arena resolver matched
      (element :: passed) stopping := by
  obtain ⟨left, same, own, others, rfl, rfl, hsame, hdiffers, hmatched⟩ := h
  refine ⟨left, id :: same, own, others, rfl, rfl, ?_⟩
  rw [resolveEach_cons_of_ok hid, Outcome.andThen, hsame]
  exact ⟨rfl, hdiffers, hmatched⟩

theorem StopsAt.first (elements : List Element) (types : List TypeIndex)
    (h : (resolveElement view loader element arena resolver).answer ≠ .ok id)
    (hmatched : matched = ⟨(resolveElement view loader element arena resolver).answer.map
      fun _ => false, (resolveElement view loader element arena resolver).arena,
      (resolveElement view loader element arena resolver).resolver⟩) :
    StopsAt view loader (id :: types) (element :: elements) arena resolver matched [] element :=
  ⟨elements, [], id, types, rfl, rfl, rfl, h, hmatched⟩

theorem StopsAt.asked {recorded : Recorded ρ} {matched : Outcome (Recorded ρ) Bool}
    (h : StopsAt view loader types elements arena recorded matched passed element) :
    matched.resolver.asked = recorded.asked ++ Element.names (passed ++ [element]) := by
  obtain ⟨_, _, _, _, -, -, hsame, -, hmatched⟩ := h
  rw [hmatched, Element.names_append, ← List.append_assoc, ← Recorded.asked_resolveEach hsame,
    Element.names_cons]
  exact (Recorded.asked_resolveElement ..).trans (congrArg _ (List.append_nil _).symm)

variable {owns : List PlacedType} {pending : List PlacedElement}

theorem matchPending_cons_of_ok {isReturn : Bool}
    (h : (resolveElement view loader element arena resolver).answer = .ok id)
    (owns : List PlacedType) (pending : List PlacedElement) :
    matchPending view loader (⟨id, isReturn⟩ :: owns) (⟨element, isReturn⟩ :: pending) none arena
      resolver =
      matchPending view loader owns pending none
        (resolveElement view loader element arena resolver).arena
        (resolveElement view loader element arena resolver).resolver := by
  rw [matchPending_cons, Outcome.andThen, h]
  exact if_pos rfl

theorem matchPending_cons_of_ne {isReturn : Bool}
    (h : (resolveElement view loader element arena resolver).answer ≠ .ok id)
    (owns : List PlacedType) (pending : List PlacedElement) :
    matchPending view loader (⟨id, isReturn⟩ :: owns) (⟨element, isReturn⟩ :: pending) none arena
      resolver =
      ⟨(resolveElement view loader element arena resolver).answer.map fun _ => false,
        (resolveElement view loader element arena resolver).arena,
        (resolveElement view loader element arena resolver).resolver⟩ := by
  rw [matchPending_cons]
  generalize resolveElement view loader element arena resolver = tried at h
  obtain ⟨_ | other, later, after⟩ := tried
  · rfl
  · exact if_neg fun heq => h (congrArg Except.ok heq.symm)

theorem matchPending_append (hreturns : owns.map (·.isReturn) = pending.map (·.isReturn))
    (others : List PlacedType) (later : List PlacedElement) (arena : Arena) (resolver : ρ) :
    let same := resolveEach view loader (pending.map (·.element)) arena resolver
    let matched := matchPending view loader (owns ++ others) (pending ++ later) none arena resolver
    (same.answer = .ok (owns.map (·.type)) ∧
      matched = matchPending view loader others later none same.arena same.resolver) ∨
    ∃ passed element, StopsAt view loader (owns.map (·.type)) (pending.map (·.element)) arena
      resolver matched passed element := by
  induction pending generalizing owns arena resolver with
  | nil =>
    obtain rfl := List.map_eq_nil_iff.mp hreturns
    exact .inl ⟨rfl, rfl⟩
  | cons placed pending ih =>
    obtain ⟨element, isReturn⟩ := placed
    obtain ⟨⟨own, _⟩, owns, rfl, rfl, hrest⟩ := List.map_eq_cons_iff.mp hreturns
    simp only [List.map_cons, List.cons_append]
    by_cases hown : (resolveElement view loader element arena resolver).answer = .ok own
    · rw [matchPending_cons_of_ok hown, resolveEach_cons_of_ok hown]
      rcases ih hrest (resolveElement view loader element arena resolver).arena
        (resolveElement view loader element arena resolver).resolver with
        ⟨hsame, hgoes⟩ | ⟨passed, stopping, hstops⟩
      · rw [Outcome.andThen, hsame]
        exact .inl ⟨rfl, hgoes⟩
      · exact .inr ⟨element :: passed, stopping, hstops.cons hown⟩
    · exact .inr ⟨[], element, .first _ _ hown (matchPending_cons_of_ne hown ..)⟩

theorem map_type_elements (signature : Signature) :
    signature.elements.map (·.type) = signature.types := by
  simp [elements, types, Function.comp_def]

end Signature

theorem Descriptor.map_element_elements (descriptor : Descriptor) :
    descriptor.elements.map (·.element) = descriptor.bare := by
  simp [elements, bare]

namespace Signature

theorem map_isReturn_elements {signature : Signature}
    (h : signature.parameters.length = signature.descriptor.parameters.length) :
    signature.elements.map (·.isReturn) = signature.descriptor.elements.map (·.isReturn) := by
  simp [elements, Descriptor.elements, Function.comp_def, h]

/-- Matching a built signature with a new cursor asks for the references of the descriptor up to
and including the first element that fails or has another type than the signature there, and is
left with what resolving these left. Where the descriptors differ, it asks for nothing. -/
theorem matching_stops_at_first_difference {first : Viewpoint} {own : Descriptor}
    {earlier : Arena} {former : σ} {signature : Signature}
    (hbuilt : (build first own earlier former).answer = .ok signature) {view : Viewpoint}
    {descriptor : Descriptor} {arena : Arena} {cursor : DescriptorCursor}
    (hstart : DescriptorCursor.start view descriptor arena = .ok cursor)
    (resolver : Recorded ρ) :
    let matched := signature.matchCursor cursor arena resolver
    let all := resolveEach view cursor.loader descriptor.bare arena resolver
    (signature.descriptor.text ≠ descriptor.text → matched = .ok false arena resolver) ∧
    (signature.descriptor.text = descriptor.text →
      (all.answer = .ok signature.types ∧ matched = .ok true all.arena all.resolver ∧
        matched.resolver.asked = resolver.asked ++ Element.names descriptor.bare) ∨
      ∃ passed element,
        StopsAt view cursor.loader signature.types descriptor.bare arena resolver matched passed
          element ∧
        matched.resolver.asked = resolver.asked ++ Element.names (passed ++ [element])) := by
  intro matched all
  obtain ⟨hcursor, -⟩ := DescriptorCursor.eq_of_start hstart
  have hmatched : matched = if signature.descriptor = descriptor then
      matchPending view cursor.loader signature.elements descriptor.elements none arena resolver
      else .ok false arena resolver := by
    dsimp only [matched]
    rw [hcursor]
    exact signature.matchCursor_eq ..
  refine ⟨fun hdiffers => ?_, fun hsame => ?_⟩
  · rw [hmatched, if_neg fun heq => hdiffers (congrArg Descriptor.text heq)]
  · have heq : signature.descriptor = descriptor := Descriptor.text_injective hsame
    have hreturns := map_isReturn_elements (length_of_build hbuilt)
    rw [if_pos heq] at hmatched
    rw [heq] at hreturns
    have hscan := @matchPending_append (Recorded ρ) _ view cursor.loader _ _ hreturns [] [] arena
      resolver
    rw [List.append_nil, List.append_nil, ← hmatched, Descriptor.map_element_elements,
      map_type_elements] at hscan
    rcases hscan with ⟨hall, hend⟩ | ⟨passed, element, hstops⟩
    · refine .inl ⟨hall, hend, ?_⟩
      rw [hend]
      exact Recorded.asked_resolveEach hall
    · exact .inr ⟨passed, element, hstops, hstops.asked⟩

theorem table_entry_ends_matching :
    let built := build ⟨⟨9⟩, []⟩ Workspace.mixed Workspace.siblings.session.arena
      Workspace.siblings.system
    let view : Viewpoint := ⟨⟨9⟩, [(['[', 'L', 'p', '/', 'A', ';'], ⟨13⟩)]⟩
    ∃ signature cursor, built.answer = .ok signature ∧
      DescriptorCursor.start view Workspace.mixed built.arena = .ok cursor ∧
      let matched := signature.matchCursor cursor built.arena
        (⟨built.resolver, []⟩ : Recorded LoaderSystem)
      matched.answer = .ok false ∧ ∃ passed element,
        StopsAt view cursor.loader signature.types Workspace.mixed.bare built.arena
          ⟨built.resolver, []⟩ matched passed element ∧
        Element.names (passed ++ [element]) =
          [['p', '/', 'D'], ['[', '[', 'J'], ['[', 'L', 'p', '/', 'A', ';']] := by
  intro built view
  have hbuilt : built.answer = .ok ⟨Workspace.mixed, ⟨9⟩, [⟨12⟩, ⟨14⟩, ⟨16⟩, ⟨17⟩], ⟨18⟩, 4⟩ := rfl
  have hstart : DescriptorCursor.start view Workspace.mixed built.arena =
      .ok ⟨view, ⟨1⟩, Workspace.mixed, Workspace.mixed.elements, none⟩ := rfl
  obtain ⟨-, hsame⟩ := matching_stops_at_first_difference hbuilt hstart
    (⟨built.resolver, []⟩ : Recorded LoaderSystem)
  refine ⟨_, _, hbuilt, hstart, ?_⟩
  intro matched
  have hfalse : matched.answer = .ok false := rfl
  have hnames : matched.resolver.asked =
      [['p', '/', 'D'], ['[', '[', 'J'], ['[', 'L', 'p', '/', 'A', ';']] := rfl
  rcases hsame rfl with ⟨-, hall, -⟩ | ⟨passed, element, hstops, hasked⟩
  · have htrue : matched.answer = .ok true := congrArg Outcome.answer hall
    rw [hfalse] at htrue
    cases htrue
  · exact ⟨hfalse, passed, element, hstops, hasked.symm.trans hnames⟩

end Signature
end MethodLinkage
