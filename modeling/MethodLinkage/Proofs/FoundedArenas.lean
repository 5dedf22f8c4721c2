import MethodLinkage.Proofs.ArrayTowers
import MethodLinkage.Proofs.TypeIdentity

/-!
# Arenas without endless arrays

Describing a type and looking for its loader go from an array to its component, from
number to number through an arena that grows. They come to an end because components
are issued before their arrays. Every command sees to that but one, which interns a
type as it stands; and that one does, too, where it interns arrays over no other
components than those that array types are made of.
-/

namespace MethodLinkage

theorem Ty.isArrayElement_iff {type : Ty} :
    type.isArrayElement = true ↔ type.isLoaded = true ∧ type ≠ .void := by
  simp [isArrayElement]

namespace Arena

variable {arena : Arena} {id component : TypeIndex} {type inner element : Ty} {dimensions : Nat}

theorem IsFounded.isClosed (h : arena.IsFounded) : arena.IsClosed := by
  intro id component hid
  obtain ⟨-, inner, hinner, -⟩ := h id component hid
  exact ⟨inner, hinner⟩

theorem IsFounded.wellFounded (h : arena.IsFounded) :
    WellFounded fun component array => arena.IsComponentOf array component := by
  refine Subrelation.wf ?_ (InvImage.wf TypeIndex.toNat Nat.lt_wfRel.wf)
  intro component array hcomponent
  exact (h array component hcomponent).1

theorem IsFounded.exists_unfolds_of_issued (h : arena.IsFounded) (hid : arena.get? id = some type) :
    ∃ dimensions element, arena.Unfolds id dimensions element := by
  rcases array_or_ne_array type with ⟨component, rfl⟩ | hnot
  · obtain ⟨dimensions, element, hunfolds, -⟩ := h.exists_unfolds hid rfl
    exact ⟨dimensions, element, hunfolds⟩
  · exact ⟨0, type, .element hid hnot⟩

theorem Unfolds.dimensions_le (h : arena.Unfolds id dimensions element)
    (hfounded : arena.IsFounded) : dimensions ≤ id.toNat := by
  induction h with
  | element _ _ => exact Nat.zero_le _
  | array hget _ ih => exact Nat.succ_le_of_lt (Nat.lt_of_le_of_lt ih (hfounded _ _ hget).1)

theorem Unfolds.primitive_or_loadedClass (h : arena.Unfolds id dimensions element)
    (helement : element.isArrayElement = true) :
    (∃ base, element = .primitive base) ∨ ∃ name loader, element = .loadedClass name loader := by
  cases element with
  | primitive base => exact .inl ⟨base, rfl⟩
  | loadedClass name loader => exact .inr ⟨name, loader, rfl⟩
  | array component => exact absurd rfl (h.ne_array component)
  | void | placeholder => cases helement

theorem IsFounded.descriptor_array (h : arena.IsFounded)
    (hid : arena.get? id = some (.array component)) :
    arena.descriptor id = (arena.descriptor component).map ('[' :: ·) := by
  obtain ⟨-, inner, hinner, -⟩ := h id component hid
  obtain ⟨dimensions, element, hunfolds⟩ := h.exists_unfolds_of_issued hinner
  rw [descriptor_of_unfolds (.array hid hunfolds), descriptor_of_unfolds hunfolds,
    List.replicate_succ]
  rfl

theorem IsFounded.definingLoader_array (h : arena.IsFounded)
    (hid : arena.get? id = some (.array component)) (hinner : arena.get? component = some inner) :
    arena.definingLoader id =
      if inner.isPrimitive then .ok (some .bootstrap) else arena.definingLoader component := by
  obtain ⟨dimensions, element, hunfolds⟩ := h.exists_unfolds_of_issued hinner
  rw [definingLoader_of_unfolds (.array hid hunfolds), definingLoader_of_unfolds hunfolds]
  cases hprimitive : inner.isPrimitive with
  | true =>
    cases inner with
    | primitive base =>
      have hbare : arena.Unfolds component 0 (.primitive base) :=
        .element hinner fun _ h => (by cases h)
      obtain ⟨rfl, rfl⟩ := hunfolds.unique hbare
      rfl
    | void | loadedClass | placeholder | array => cases hprimitive
  | false =>
    -- a component that stands for a bare element is that element
    have hbare : dimensions = 0 → element.isPrimitive = false := by
      rintro rfl
      cases hunfolds with
      | element hget _ => rwa [Option.some.inj (hget.symm.trans hinner)]
    rw [if_neg Bool.false_ne_true, Nat.add_comm, elementLoader_add hbare]

theorem IsFounded.elementLoader_ne_none_iff (h : arena.IsFounded) (hid : arena.get? id = some type)
    (hunfolds : arena.Unfolds id dimensions element) :
    elementLoader dimensions element ≠ none ↔ type.isReference = true := by
  constructor
  · intro hsome
    cases hunfolds with
    | element hget _ =>
      obtain rfl := Option.some.inj (hget.symm.trans hid)
      cases element with
      | loadedClass | array => rfl
      | primitive | void | placeholder => exact absurd rfl hsome
    | array hget _ =>
      rw [← Option.some.inj (hget.symm.trans hid)]
      rfl
  · intro hreference
    obtain ⟨depth, found, hunfolds', hloaded⟩ :=
      h.exists_unfolds hid (Ty.isArrayElement_of_isReference hreference)
    obtain ⟨rfl, rfl⟩ := hunfolds.unique hunfolds'
    obtain ⟨loader, hloader⟩ := exists_elementLoader hunfolds hid hreference hloaded
    rw [hloader]
    exact Option.some_ne_none loader

theorem IsFounded.elementLoader_array (h : arena.IsFounded)
    (hid : arena.get? id = some (.array component))
    (hunfolds : arena.Unfolds id dimensions element) :
    (∃ base, element = .primitive base ∧ elementLoader dimensions element = some .bootstrap) ∨
      ∃ name loader, element = .loadedClass name loader ∧
        elementLoader dimensions element = some loader := by
  obtain ⟨depth, found, hunfolds', hloaded⟩ := h.exists_unfolds hid rfl
  obtain ⟨rfl, rfl⟩ := hunfolds.unique hunfolds'
  obtain ⟨inner, rfl, -⟩ := hunfolds.of_array hid
  rcases hunfolds.primitive_or_loadedClass hloaded with ⟨base, rfl⟩ | ⟨name, loader, rfl⟩
  · exact .inl ⟨base, rfl, rfl⟩
  · exact .inr ⟨name, loader, rfl, rfl⟩

end Arena

namespace Workspace

variable {workspace : Workspace} {command : Command} {commands : List Command}

theorem perform_describe {id : TypeIndex} {type : Ty} {text : Text} {loader : Option LoaderIndex}
    (hid : workspace.session.arena.get? id = some type)
    (htext : workspace.session.arena.descriptor id = .ok text)
    (hloader : workspace.session.arena.definingLoader id = .ok loader) :
    workspace.perform (.describe id) =
      workspace.answer (.description ⟨type, text, loader⟩) := by
  dsimp only [perform, describe]
  rw [hid, htext, hloader]
  rfl

theorem spans_isFounded :
    Spans (fun command => ∀ component, command ≠ .intern (.array component)) fun before after =>
      before.1.IsFounded → after.1.IsFounded where
  within view :=
    { refl := fun _ h => h
      trans := fun hfirst hsecond h => hsecond (hfirst h)
      resolve := fun arena system _ name _ =>
        (LoaderSystem.resolve_lookups system arena view name).isFounded
      placeholder := fun _ _ _ _ h => h.intern trivial }
  still _ hsame h := hsame ▸ h
  addLoader _ _ _ h := h
  intern {form type} hallowed htype arena system h := by
    cases form with
    | array component => exact absurd rfl (hallowed component)
    | primitive letter =>
      obtain ⟨base, -, rfl⟩ := Option.map_eq_some_iff.mp htype
      exact h.intern trivial
    | void | loadedClass | placeholder =>
      cases htype
      exact h.intern trivial
  arrayOver arena element dimensions system :=
    (LoaderSystem.arrayOver_lookups system arena element dimensions).isFounded
  resolve _ view arena system := (LoaderSystem.resolve_lookups system arena view _).isFounded

theorem isFounded_step (h : workspace.session.arena.IsFounded)
    (hcommand : ∀ component, command = .intern (.array component) →
      workspace.session.arena.Admits (.array component)) :
    (workspace.step command).2.session.arena.IsFounded := by
  by_cases harray : ∃ component, command = .intern (.array component)
  · obtain ⟨component, rfl⟩ := harray
    exact h.intern (hcommand component rfl)
  · exact spans_isFounded.step workspace (not_exists.mp harray) h

theorem isFounded_run (h : workspace.session.arena.IsFounded)
    (hcommands : ∀ before component after, commands = before ++ .intern (.array component) :: after →
      (workspace.run before).2.session.arena.Admits (.array component)) :
    (workspace.run commands).2.session.arena.IsFounded := by
  induction commands generalizing workspace with
  | nil => exact h
  | cons command rest ih =>
    apply ih
    · apply isFounded_step h
      rintro component rfl
      exact hcommands [] component rest rfl
    · intro before component after hrest
      exact hcommands (command :: before) component after (congrArg (command :: ·) hrest)

/-- Where arrays are interned as they stand only over issued types that are loaded and not `void`,
every array comes after its component, which is such a type. So a walk down from an issued number
meets issued numbers only and ends, after no more types than there are numbers below: a type is
described as its component is after a bracket. Loaded classes and arrays have a defining loader,
and nothing else has; that of an array is the loader of the class that it is made of, or the
bootstrap loader where that is a primitive. -/
theorem arrays_stand_on_earlier_types (files : FileTree) (bootstrap : ClassPath)
    {commands : List Command}
    (hcommands : ∀ before component after, commands = before ++ .intern (.array component) :: after →
      ∃ inner, ((start files bootstrap).run before).2.session.arena.get? component = some inner ∧
        inner.isLoaded = true ∧ inner ≠ .void) :
    let workspace := ((start files bootstrap).run commands).2
    let arena := workspace.session.arena
    (∀ id component, arena.get? id = some (.array component) → component.toNat < id.toNat ∧
      ∃ inner, arena.get? component = some inner ∧ inner.isLoaded = true ∧ inner ≠ .void) ∧
    (WellFounded fun component array => arena.IsComponentOf array component) ∧
    ∀ id type, arena.get? id = some type → arena.IsGrounded id ∧
      ∃ dimensions element text loader,
        arena.Unfolds id dimensions element ∧ dimensions ≤ id.toNat ∧
        arena.descriptor id = .ok text ∧ arena.definingLoader id = .ok loader ∧
        workspace.perform (.describe id) = workspace.answer (.description ⟨type, text, loader⟩) ∧
        (loader ≠ none ↔ type.isReference = true) ∧
        (∀ name definer, type = .loadedClass name definer → loader = some definer) ∧
        ∀ component inner, type = .array component → arena.get? component = some inner →
          arena.descriptor id = (arena.descriptor component).map ('[' :: ·) ∧
          arena.definingLoader id =
            (if inner.isPrimitive then .ok (some .bootstrap) else arena.definingLoader component) ∧
          ((∃ base, element = .primitive base ∧ loader = some .bootstrap) ∨
            ∃ name definer, element = .loadedClass name definer ∧ loader = some definer) := by
  intro workspace arena
  have hfounded : arena.IsFounded := by
    refine isFounded_run Arena.isFounded_fresh fun before component after hsplit => ?_
    obtain ⟨inner, hinner, helement⟩ := hcommands before component after hsplit
    exact ⟨inner, hinner, Ty.isArrayElement_iff.mpr helement⟩
  refine ⟨fun id component hid => ?_, hfounded.wellFounded, fun id type hid =>
    ⟨hfounded.isClosed.isGrounded ⟨type, hid⟩, ?_⟩⟩
  · obtain ⟨hlt, inner, hinner, helement⟩ := hfounded id component hid
    exact ⟨hlt, inner, hinner, Ty.isArrayElement_iff.mp helement⟩
  · obtain ⟨dimensions, element, hunfolds⟩ := hfounded.exists_unfolds_of_issued hid
    have htext := Arena.descriptor_of_unfolds hunfolds
    have hloader := Arena.definingLoader_of_unfolds hunfolds
    refine ⟨dimensions, element, _, _, hunfolds, hunfolds.dimensions_le hfounded, htext, hloader,
      perform_describe hid htext hloader, hfounded.elementLoader_ne_none_iff hid hunfolds, ?_, ?_⟩
    · rintro name definer rfl
      obtain ⟨rfl, rfl⟩ := hunfolds.unique (.element hid fun _ h => (by cases h))
      rfl
    · rintro component inner rfl hinner
      exact ⟨hfounded.descriptor_array hid, hfounded.definingLoader_array hid hinner,
        hfounded.elementLoader_array hid hunfolds⟩

def layered : List Command :=
  [.intern (.loadedClass ['p', '/', 'C'] ⟨3⟩), .intern (.array ⟨9⟩),
    .resolve ⟨⟨10⟩, none⟩ ['[', '[', 'J'], .intern (.array ⟨12⟩),
    .intern (.placeholder ['q'] ⟨3⟩), .arrayOver ⟨14⟩ 1]

theorem layered_arrays_are_described :
    let workspace := ((start .empty (.place (.memory []))).run layered).2
    workspace.session.arena.size = 15 ∧
      workspace.perform (.describe ⟨10⟩) = workspace.answer
        (.description ⟨.array ⟨9⟩, ['[', 'L', 'p', '/', 'C', ';'], some ⟨3⟩⟩) ∧
      workspace.perform (.describe ⟨13⟩) = workspace.answer
        (.description ⟨.array ⟨12⟩, ['[', '[', '[', 'J'], some .bootstrap⟩) ∧
      workspace.perform (.describe ⟨14⟩) = workspace.answer
        (.description ⟨.placeholder ['q'] ⟨3⟩, ['L', 'q', ';'], none⟩) := by
  intro workspace
  have hlayered : ∀ before component after, layered = before ++ .intern (.array component) :: after →
      ∃ inner, ((start .empty (.place (.memory []))).run
          before).2.session.arena.get? component = some inner ∧
        inner.isLoaded = true ∧ inner ≠ .void := by
    intro before component after hsplit
    rcases before with _ | ⟨first, _ | ⟨second, _ | ⟨third, _ | ⟨fourth, before⟩⟩⟩⟩
    · cases hsplit
    · cases hsplit
      exact ⟨_, rfl, rfl, by decide⟩
    · cases hsplit
    · cases hsplit
      exact ⟨_, rfl, rfl, by decide⟩
    -- no later command interns an array as it stands
    · have hmem : Command.intern (.array component) ∈ layered.drop 4 := by
        rw [hsplit]
        exact List.mem_append_right before List.mem_cons_self
      simp [layered] at hmem
  obtain ⟨-, -, hdescribed⟩ := arrays_stand_on_earlier_types .empty
    (.place (.memory [])) hlayered
  have htells {id : TypeIndex} {type : Ty} {text : Text} {loader : Option LoaderIndex}
      (hid : workspace.session.arena.get? id = some type)
      (htext : workspace.session.arena.descriptor id = .ok text)
      (hloader : workspace.session.arena.definingLoader id = .ok loader) :
      workspace.perform (.describe id) =
        workspace.answer (.description ⟨type, text, loader⟩) := by
    obtain ⟨-, _, _, _, _, -, -, htext', hloader', hanswer, -⟩ := hdescribed id type hid
    rw [hanswer, Except.ok.inj (htext.symm.trans htext'),
      Except.ok.inj (hloader.symm.trans hloader')]
  exact ⟨rfl, htells rfl rfl rfl, htells rfl rfl rfl, htells rfl rfl rfl⟩

end Workspace
end MethodLinkage
