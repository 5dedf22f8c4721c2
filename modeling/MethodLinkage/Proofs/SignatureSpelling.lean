import MethodLinkage.Proofs.ReachedStates
import MethodLinkage.Proofs.SignatureBuilding

/-!
# What a signature spells

The types of a signature have descriptors, and these, put together as a method
descriptor, are the text that the signature was built from. A loaded class bears
the name it was searched by; a placeholder keeps the name of its element, also
when that is an array; what a table gives has the descriptor of its name.
-/

namespace MethodLinkage

def Signature.spelling (signature : Signature) (arena : Arena) : Except Fault Text := do
  let parameters ← signature.parameters.mapM arena.descriptor
  let result ← arena.descriptor signature.result
  return '(' :: parameters.flatten ++ ')' :: result

theorem isArrayName_className (className : ClassName) : isArrayName className.text = false := by
  cases hname : className.text with
  | nil => rfl
  | cons c rest =>
    have hclean := (className.clean (hname ▸ List.mem_cons_self : c ∈ className.text)).2.2
    simp [isArrayName, hclean]

theorem FieldType.isArrayName_text {type : FieldType} (h : type.dimensions ≠ 0) :
    isArrayName type.text = true := by
  obtain ⟨n, hn⟩ := Nat.exists_eq_succ_of_ne_zero h
  simp [isArrayName, text, hn, List.replicate_succ]

theorem Element.classDescriptor_of_name? {element : Element} {name : Text}
    (h : element.kind.name? = some name) : classDescriptor name = element.text := by
  cases element with
  | void => cases h
  | field type =>
    by_cases hzero : type.dimensions = 0
    · cases hbase : type.base with
      | primitive base =>
        rw [name?_of_primitive hbase, if_pos hzero] at h
        cases h
      | object className =>
        rw [name?_of_object hbase, FieldType.referenceName, hbase] at h
        simp only [if_pos hzero, Option.some.injEq] at h
        subst h
        simp [classDescriptor, isArrayName_className, text, FieldType.text, hzero, hbase,
          BaseType.text]
    · have hname : name = type.text := by
        cases hbase : type.base with
        | primitive base =>
          rw [name?_of_primitive hbase, if_neg hzero] at h
          exact (Option.some.inj h).symm
        | object className =>
          rw [name?_of_object hbase, FieldType.referenceName, hbase] at h
          simp only [if_neg hzero, Option.some.injEq] at h
          exact h.symm
      rw [hname, classDescriptor, FieldType.isArrayName_text hzero, if_pos rfl]
      rfl

namespace LoaderSystem

open Arena (Placement)

variable {system : LoaderSystem} {arena : Arena} {view : Viewpoint} {loader definer : LoaderIndex}
  {name : Text} {element : Element} {placement : Placement} {id : TypeIndex}

theorem name_of_answer? {info : FoundClass} (hfaithful : system.IsFaithful)
    (h : system.answer? loader name = some (.ok info)) : info.name = name := by
  obtain ⟨found, hfound, hinfo⟩ := Option.map_eq_some_iff.mp h
  have hmem : found ∈ system.loaders := List.mem_of_getElem? hfound
  have hpath := ClassPath.IsFaithful.find system.files name found.path (hfaithful found hmem)
  exact (hpath.1 info hinfo).1

theorem name_of_sight {info : FoundClass} (hfaithful : system.IsFaithful)
    (h : system.sight loader name = .ok (some (info, definer))) : info.name = name := by
  rw [sight] at h
  split at h
  · cases h
  · obtain ⟨_, _, -, -, hanswer⟩ := verdict_eq_found_iff.mp h
    exact name_of_answer? hfaithful hanswer

def Spelled (arena : Arena) (references : References) : Prop :=
  ∀ name id, references.lookup name = some id → arena.descriptor id = .ok (classDescriptor name)

theorem Spelled.mono {references : References} {larger : Arena}
    (hgrown : arena.types <+: larger.types) (h : Spelled arena references) :
    Spelled larger references := fun name id hentry =>
  Arena.descriptor_mono hgrown (h name id hentry)

theorem Spelled.issued {references : References} (h : Spelled arena references) :
    Issued arena references := by
  intro name id hentry
  obtain ⟨_, _, hunfolds, -⟩ := Arena.exists_unfolds_of_descriptor (h name id hentry)
  exact hunfolds.exists_get?

theorem descriptor_of_sightType {type : FieldType} (hfaithful : system.IsFaithful)
    (hplacement : system.sightType loader type = .ok placement) (h : arena.Holds placement id) :
    arena.descriptor id = .ok type.text := by
  rw [sightType] at hplacement
  cases hbase : type.base with
  | primitive base =>
    rw [hbase] at hplacement
    cases hplacement
    rw [Arena.descriptor_of_unfolds h, FieldType.text, hbase]
    rfl
  | object className =>
    rw [hbase] at hplacement
    dsimp only at hplacement
    cases hsight : system.sight loader className.text with
    | error error =>
      rw [hsight] at hplacement
      cases hplacement
    | ok found =>
      rw [hsight] at hplacement
      cases found with
      | none =>
        cases hplacement
        have hname := Element.classDescriptor_of_name? (Element.name?_of_object hbase)
        rw [Arena.descriptor_of_unfolds h]
        exact congrArg Except.ok hname
      | some found =>
        obtain ⟨info, definer⟩ := found
        cases hplacement
        have hname := name_of_sight hfaithful hsight
        rw [Arena.descriptor_of_unfolds h, FieldType.text, hbase, Arena.elementDescriptor, hname,
          classDescriptor, isArrayName_className]
        rfl

theorem descriptor_of_holds (hfaithful : system.IsFaithful)
    (hspelled : Spelled arena view.references)
    (hplacement : system.placement view loader element = .ok placement)
    (h : arena.Holds placement id) : arena.descriptor id = .ok element.text := by
  cases element with
  | void =>
    cases hplacement
    rw [Arena.descriptor_of_unfolds h]
    rfl
  | field type =>
    rw [LoaderSystem.placement] at hplacement
    cases hentry : (Element.field type).kind.name?.bind (view.references.lookup ·) with
    | none =>
      rw [hentry] at hplacement
      exact descriptor_of_sightType hfaithful hplacement h
    | some known =>
      rw [hentry] at hplacement
      cases hplacement
      cases h
      obtain ⟨name, hname, hlookup⟩ := Option.bind_eq_some_iff.mp hentry
      rw [hspelled name id hlookup, Element.classDescriptor_of_name? hname]

theorem mapM_descriptor {elements : List Element} {ids : List TypeIndex}
    (h : List.Forall₂ (fun element id => arena.descriptor id = .ok element.text) elements ids) :
    ids.mapM arena.descriptor = .ok (elements.map Element.text) := by
  induction h with
  | nil => rfl
  | cons hfirst _ ih =>
    rw [List.mapM_cons, hfirst, ih]
    rfl

theorem spelling_of_types {descriptor : Descriptor} {signature : Signature}
    (h : List.Forall₂ (fun element id => arena.descriptor id = .ok element.text)
      descriptor.bare signature.types) : signature.spelling arena = .ok descriptor.text := by
  obtain ⟨hparameters, hresult⟩ := Signature.forall₂_types h
  have hspelled := mapM_descriptor (List.forall₂_map_left_iff.mpr hparameters)
  simp only [Signature.spelling, hspelled, hresult, Descriptor.text, Descriptor.parameterText,
    List.flatMap_def, List.map_map]
  rfl

end LoaderSystem

/-- A signature that was built spells the descriptor it was built from. -/
theorem Signature.spells_its_descriptor {arena : Arena} (harena : arena.Reached)
    {system : LoaderSystem} (hsystem : system.Reached) {text : Text} {descriptor : Descriptor}
    (hread : Descriptor.ofText? text = some descriptor) {view : Viewpoint}
    (htable : ∀ name id, view.references.lookup name = some id →
      arena.descriptor id = .ok (classDescriptor name))
    {signature : Signature}
    (hbuild : (build view descriptor arena system).answer = .ok signature) :
    signature.spelling (build view descriptor arena system).arena = .ok text := by
  obtain ⟨loader, hloader⟩ := LoaderSystem.definingLoader_of_build hbuild
  have hspelled : LoaderSystem.Spelled arena view.references := htable
  obtain ⟨-, hsettled, -⟩ :=
    LoaderSystem.settle_of_build harena.valid hloader hspelled.issued hbuild
  have hgrown := LoaderSystem.types_prefix_of_settle hsettled
  rw [Descriptor.ofText?_eq_some_iff.mp hread]
  refine LoaderSystem.spelling_of_types ((LoaderSystem.settle_holds hsettled).imp ?_)
  rintro element id ⟨placement, hplacement, hholds⟩
  exact LoaderSystem.descriptor_of_holds hsystem.isFaithful (hspelled.mono hgrown) hplacement hholds

theorem Signature.spells_loaded_and_missing :
    ∃ signature outcome,
      build ⟨⟨9⟩, [(['p', '/', 'D'], ⟨11⟩)]⟩ Workspace.mixed Workspace.siblings.session.arena
        Workspace.siblings.system = outcome ∧
      outcome.answer = .ok signature ∧
      signature.spelling outcome.arena =
        .ok ['(', 'L', 'p', '/', 'D', ';', '[', '[', 'J', '[', 'L', 'p', '/', 'A', ';',
          '[', 'L', 'p', '/', 'F', ';', ')', 'L', 'q', ';'] := by
  refine ⟨_, _, rfl, rfl, ?_⟩
  refine spells_its_descriptor ⟨_, Workspace.siblings_reached, rfl⟩
    ⟨_, Workspace.siblings_reached, rfl⟩ (Descriptor.ofText?_eq_some_iff.mpr rfl) ?_ rfl
  intro name id hentry
  cases List.mem_singleton.mp (LoaderSystem.mem_of_lookup hentry)
  rfl

end MethodLinkage
