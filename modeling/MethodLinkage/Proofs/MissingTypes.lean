import MethodLinkage.Proofs.CrossContextEquality

/-!
# Missing types

A signature that was built has a placeholder exactly where a class was missing: the element has no
entry in the table, and no loader of the chain has its class, or the class that its arrays are
made of. The placeholder goes by the whole name of the element, so that an array of a missing
class is a placeholder and not an array.
-/

namespace MethodLinkage

theorem Signature.anyPlaceholder_of_forall₂ {arena : Arena} {elements : List Element}
    {ids : List TypeIndex} {missing : Element → Prop}
    (h : List.Forall₂ (fun element id => ∃ type, arena.get? id = some type ∧
      (type.isLoaded = false ↔ missing element)) elements ids) :
    ∃ flag, anyPlaceholder arena ids = .ok flag ∧
      (flag = true ↔ ∃ element ∈ elements, missing element) := by
  induction h with
  | nil => exact ⟨false, rfl, by simp⟩
  | @cons element id rest others hfirst _ ih =>
    obtain ⟨type, hget, hmissing⟩ := hfirst
    rw [anyPlaceholder, hget]
    dsimp only
    cases hloaded : type.isLoaded with
    | false =>
      exact ⟨true, rfl, fun _ => ⟨element, List.mem_cons_self, hmissing.mp hloaded⟩, fun _ => rfl⟩
    | true =>
      have hfound : ¬ missing element := fun h => (by simp [hmissing.mpr h] at hloaded)
      obtain ⟨flag, hflag, hiff⟩ := ih
      exact ⟨flag, hflag, by simp [hiff, hfound]⟩

namespace LoaderSystem

open Arena (Placement)

variable {system : LoaderSystem} {arena : Arena} {view : Viewpoint} {loader : LoaderIndex}
  {element : Element} {placement : Placement} {name : Text} {id : TypeIndex}

/-- No loader that is asked has the class. -/
def Lacks (system : LoaderSystem) (loader : LoaderIndex) (name : Text) : Prop :=
  ∃ chain, system.chain? loader = some chain ∧
    ∀ asked ∈ chain, ∀ info, system.answer? asked name ≠ some (.ok info)

/-- An element whose class, or whose arrays' class, can be had neither from the table nor from a
loader. -/
def Misses (system : LoaderSystem) (view : Viewpoint) (loader : LoaderIndex) (element : Element)
    (name : Text) : Prop :=
  ∃ type className, element = .field type ∧ element.kind = .reference name ∧
    view.references.lookup name = none ∧ type.base = .object className ∧
    system.Lacks loader className.text

theorem lacks_iff_of_sight {found : Option (FoundClass × LoaderIndex)}
    (h : system.sight loader name = .ok found) : system.Lacks loader name ↔ found = none := by
  constructor
  · rintro ⟨chain, hchain, hlacks⟩
    cases found with
    | none => rfl
    | some found =>
      have hanswer := answer?_of_sight h
      obtain ⟨_, above, below, _, hchain', hsplit, -⟩ := findsAt_iff.mpr ⟨found.1, h, hanswer⟩
      cases hchain.symm.trans hchain'
      have hasked : found.2 ∈ chain := by
        rw [← List.mem_reverse, hsplit]
        exact List.mem_append_right above List.mem_cons_self
      exact absurd hanswer (hlacks found.2 hasked found.1)
  · rintro rfl
    obtain ⟨chain, hchain, hnowhere⟩ := findsNowhere_iff.mpr h
    refine ⟨chain, hchain, fun asked hasked info hanswer => ?_⟩
    rw [hnowhere asked hasked] at hanswer
    cases hanswer

theorem sight_of_sightType {type : FieldType} {dimensions : Nat} {innermost : Ty}
    (h : system.sightType loader type = .ok (.built dimensions innermost))
    (hmissing : innermost.isLoaded = false) :
    ∃ className, type.base = .object className ∧ system.sight loader className.text = .ok none ∧
      dimensions = 0 ∧ innermost = .placeholder type.referenceName loader := by
  cases hbase : type.base with
  | primitive base =>
    rw [sightType, hbase] at h
    cases h
    cases hmissing
  | object className =>
    obtain ⟨found, hsight, hplaced⟩ := exists_sight_of_sightType hbase h
    cases found with
    | some found =>
      cases hplaced
      cases hmissing
    | none =>
      cases hplaced
      exact ⟨className, rfl, hsight, rfl, rfl⟩

theorem misses_iff (h : system.placement view loader element = .ok placement) :
    system.Misses view loader element name ↔
      placement = .built 0 (.placeholder name loader) := by
  constructor
  · rintro ⟨type, className, rfl, hkind, hentry, hbase, hlacks⟩
    have hname := Element.name?_of_object hbase
    rw [hkind] at hname
    obtain rfl : name = type.referenceName := Option.some.inj hname
    rw [LoaderSystem.placement, hkind, ElementKind.name?, Option.bind_some, hentry] at h
    obtain ⟨found, hsight, rfl⟩ := exists_sight_of_sightType hbase h
    rw [(lacks_iff_of_sight hsight).mp hlacks]
    rfl
  · rintro rfl
    cases element with
    | void => cases h
    | field type =>
      obtain ⟨className, hbase, hsight, -, hplaceholder⟩ :=
        sight_of_sightType (sightType_of_built h) rfl
      obtain ⟨rfl, -⟩ := Ty.placeholder.inj hplaceholder
      have hname := Element.name?_of_object hbase
      have hentry : view.references.lookup type.referenceName = none := by
        rw [LoaderSystem.placement, hname, Option.bind_some] at h
        split at h
        · cases h
        · assumption
      exact ⟨type, className, rfl, Element.kind_of_name? hname, hentry, hbase,
        (lacks_iff_of_sight hsight).mpr rfl⟩

theorem placement_of_not_loaded {type : Ty} (htable : GivesOnly (·.isLoaded) arena view.references)
    (hplacement : system.placement view loader element = .ok placement)
    (hholds : arena.Holds placement id) (hget : arena.get? id = some type)
    (hmissing : type.isLoaded = false) :
    ∃ name, placement = .built 0 (.placeholder name loader) := by
  cases placement with
  | known known =>
    obtain ⟨name, -, hentry⟩ := lookup_of_placement hplacement
    cases hholds
    obtain ⟨found, hfound, hloaded⟩ := htable name id hentry
    rw [Option.some.inj (hget.symm.trans hfound), hloaded] at hmissing
    cases hmissing
  | built dimensions innermost =>
    cases hholds with
    | element hget' _ =>
      obtain rfl := Option.some.inj (hget.symm.trans hget')
      cases element with
      | void =>
        cases hplacement
        cases hmissing
      | field fieldType =>
        obtain ⟨_, -, -, -, hplaceholder⟩ :=
          sight_of_sightType (sightType_of_built hplacement) hmissing
        exact ⟨_, by rw [hplaceholder]⟩
    | array hget' _ =>
      rw [Option.some.inj (hget.symm.trans hget')] at hmissing
      cases hmissing

theorem exists_type_of_holds (htable : GivesOnly (·.isLoaded) arena view.references)
    (hplacement : system.placement view loader element = .ok placement)
    (hholds : arena.Holds placement id) :
    ∃ type, arena.get? id = some type ∧
      (type.isLoaded = false ↔ ∃ name, system.Misses view loader element name) ∧
      ∀ name, system.Misses view loader element name → type = .placeholder name loader := by
  obtain ⟨type, hget⟩ := exists_get?_of_holds htable.issued hplacement hholds
  have hplaceholder (name : Text) (hmisses : system.Misses view loader element name) :
      type = .placeholder name loader := by
    rw [(misses_iff hplacement).mp hmisses] at hholds
    cases hholds with
    | element hget' _ => exact Option.some.inj (hget.symm.trans hget')
  refine ⟨type, hget, ⟨fun hmissing => ?_, fun ⟨name, hmisses⟩ => ?_⟩, hplaceholder⟩
  · obtain ⟨name, hbuilt⟩ := placement_of_not_loaded htable hplacement hholds hget hmissing
    exact ⟨name, (misses_iff hplacement).mpr hbuilt⟩
  · rw [hplaceholder name hmisses]
    rfl

theorem types_of_build {descriptor : Descriptor} {signature : Signature} {later : Arena}
    (hvalid : arena.Valid) (hloader : arena.definingLoader view.accessing = .ok (some loader))
    (htable : GivesOnly (·.isLoaded) arena view.references)
    (hbuilt : (Signature.build view descriptor arena system).answer = .ok signature)
    (hlater : (Signature.build view descriptor arena system).arena.types <+: later.types) :
    List.Forall₂ (fun element id => ∃ type, later.get? id = some type ∧
        (type.isLoaded = false ↔ ∃ name, system.Misses view loader element name) ∧
        ∀ name, system.Misses view loader element name → type = .placeholder name loader)
      descriptor.bare signature.types := by
  obtain ⟨-, hsettled, -⟩ := settle_of_build hvalid hloader htable.issued hbuilt
  have hgrown := (types_prefix_of_settle hsettled).trans hlater
  refine (settle_holds hsettled).imp ?_
  rintro element id ⟨placement, hplacement, hholds⟩
  exact exists_type_of_holds (htable.mono hgrown) hplacement (hholds.mono hlater)

theorem hasPlaceholder_of_build {descriptor : Descriptor} {signature : Signature} {later : Arena}
    (hvalid : arena.Valid) (hloader : arena.definingLoader view.accessing = .ok (some loader))
    (htable : GivesOnly (·.isLoaded) arena view.references)
    (hbuilt : (Signature.build view descriptor arena system).answer = .ok signature)
    (hlater : (Signature.build view descriptor arena system).arena.types <+: later.types) :
    ∃ flag, signature.hasPlaceholder later = .ok flag ∧ (flag = true ↔
      ∃ element ∈ descriptor.bare, ∃ name, system.Misses view loader element name) := by
  rw [Signature.hasPlaceholder_eq]
  exact Signature.anyPlaceholder_of_forall₂
    ((types_of_build hvalid hloader htable hbuilt hlater).imp
      fun _ _ ⟨type, hget, hmissing, _⟩ => ⟨type, hget, hmissing⟩)

end LoaderSystem

namespace Signature

/-- A signature has a placeholder, now and later, exactly if the class of one of its elements was
missing. The numbers of these elements stand for placeholders with the element's whole name and
the accessing type's loader, all others for types that are loaded. -/
theorem placeholders_are_missing_classes {arena : Arena} (harena : arena.Reached)
    (system : LoaderSystem) {view : Viewpoint}
    (htable : ∀ name id, view.references.lookup name = some id →
      ∃ type, arena.get? id = some type ∧ type.isLoaded = true)
    {descriptor : Descriptor} {signature : Signature}
    (hbuilt : (build view descriptor arena system).answer = .ok signature) {later : Arena}
    (hlater : (build view descriptor arena system).arena.types <+: later.types) :
    ∃ loader flag, arena.definingLoader view.accessing = .ok (some loader) ∧
      signature.hasPlaceholder later = .ok flag ∧
      (flag = true ↔
        ∃ element ∈ descriptor.bare, ∃ name, system.Misses view loader element name) ∧
      List.Forall₂ (fun element id => ∃ type, later.get? id = some type ∧
          (type.isLoaded = false ↔ ∃ name, system.Misses view loader element name) ∧
          ∀ name, system.Misses view loader element name → type = .placeholder name loader)
        descriptor.bare signature.types := by
  obtain ⟨loader, hloader⟩ := LoaderSystem.definingLoader_of_build hbuilt
  obtain ⟨flag, hflag, hiff⟩ :=
    LoaderSystem.hasPlaceholder_of_build harena.valid hloader htable hbuilt hlater
  exact ⟨loader, flag, hloader, hflag, hiff,
    LoaderSystem.types_of_build harena.valid hloader htable hbuilt hlater⟩

theorem array_of_missing_class_is_placeholder :
    let outcome := build ⟨⟨9⟩, [(['p', '/', 'D'], ⟨10⟩)]⟩ Workspace.mixed
      Workspace.siblings.session.arena Workspace.siblings.system
    ∃ signature, outcome.answer = .ok signature ∧ signature.types[3]? = some ⟨16⟩ ∧
      outcome.arena.get? ⟨16⟩ = some (.placeholder ['[', 'L', 'p', '/', 'F', ';'] ⟨1⟩) ∧
      signature.hasPlaceholder outcome.arena = .ok true := by
  intro outcome
  have hbuilt : outcome.answer =
      .ok ⟨Workspace.mixed, ⟨9⟩, [⟨10⟩, ⟨13⟩, ⟨15⟩, ⟨16⟩], ⟨17⟩, 4⟩ := rfl
  have htable : LoaderSystem.GivesOnly (·.isLoaded) Workspace.siblings.session.arena
      [(['p', '/', 'D'], ⟨10⟩)] := by
    have hget : Workspace.siblings.session.arena.get? ⟨10⟩ =
      some (.loadedClass ['p', '/', 'C'] ⟨2⟩) := rfl
    exact LoaderSystem.givesOnly_singleton _ hget rfl
  have hmisses : Workspace.siblings.system.Misses ⟨⟨9⟩, [(['p', '/', 'D'], ⟨10⟩)]⟩ ⟨1⟩
      (.field ⟨1, .object ⟨['p', '/', 'F'], by decide⟩, by decide⟩)
      ['[', 'L', 'p', '/', 'F', ';'] := by
    refine ⟨_, _, rfl, rfl, rfl, rfl, [⟨1⟩, .bootstrap], rfl, ?_⟩
    simp only [List.forall_mem_cons]
    exact ⟨fun _ h => (by cases h), fun _ h => (by cases h), List.forall_mem_nil _⟩
  obtain ⟨loader, flag, hloader, hflag, hiff, htypes⟩ :=
    @placeholders_are_missing_classes _ ⟨_, Workspace.siblings_reached, rfl⟩ _
      ⟨⟨9⟩, [(['p', '/', 'D'], ⟨10⟩)]⟩ htable _ _ hbuilt _ (List.prefix_refl _)
  obtain rfl : (⟨1⟩ : LoaderIndex) = loader := Option.some.inj (Except.ok.inj hloader)
  obtain ⟨type, hget, -, hplaceholder⟩ :=
    htypes.get (show 3 < Workspace.mixed.bare.length by decide) (by decide)
  refine ⟨_, hbuilt, rfl, ?_, ?_⟩
  · rw [← hplaceholder _ hmisses]
    exact hget
  · have hmem := List.mem_of_getElem? (show Workspace.mixed.bare[3]? = some _ from rfl)
    rw [hflag, hiff.mpr ⟨_, hmem, _, hmisses⟩]

end Signature
end MethodLinkage
