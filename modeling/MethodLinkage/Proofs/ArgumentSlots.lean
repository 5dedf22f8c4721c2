import MethodLinkage.Proofs.BuildOutcome
import MethodLinkage.Proofs.ScannedElements

/-!
# Slots of the arguments

How many slots the arguments take can be read off the text of a descriptor: two for a
token that is a single `J` or `D`, one for any other. It makes no difference what the
classes are resolved to, for a class, an array and a placeholder take one slot alike.
Every parameter is written with a character at least, so that the counter of a text of
fewer than 2^31 characters does not wrap.
-/

namespace MethodLinkage

namespace ElementKind

/-- The slots of a parameter by its token. -/
def slots (kind : ElementKind) : Nat :=
  if kind.text = ['J'] ∨ kind.text = ['D'] then 2 else 1

theorem slots_primitive (base : Primitive) : (primitive base).slots = base.slots.toNat := by
  cases base <;> decide

theorem slots_reference (name : Text) : (reference name).slots = 1 := by
  have hhead (letter : Char) (hletter : letter ≠ 'L') (hbracket : letter ≠ '[') :
      classDescriptor name ≠ [letter] := by
    intro heq
    unfold classDescriptor isArrayName at heq
    split at heq
    · next harray =>
      rw [heq] at harray
      exact hbracket (by simpa using harray)
    · exact hletter (List.cons.inj heq).1.symm
  refine if_neg ?_
  rintro (hlong | hdouble)
  · exact hhead 'J' (by decide) (by decide) hlong
  · exact hhead 'D' (by decide) (by decide) hdouble

def slotCount : List ElementKind → Nat
  | [] => 0
  | kind :: rest => kind.slots + slotCount rest

end ElementKind

namespace Ty

def IsReferent (type : Ty) : Prop := type.isPrimitive = false ∧ type ≠ .void

theorem slots_of_isReferent {type : Ty} (h : type.IsReferent) : type.slots = 1 := by
  cases type with
  | primitive base => cases h.1
  | void => exact absurd rfl h.2
  | loadedClass | placeholder | array => rfl

end Ty

namespace Arena

variable {arena : Arena} {id : TypeIndex} {element : Ty} {dimensions : Nat}

/-- The counter as it stands after the given types were added to it one by one. -/
def runningSlots (arena : Arena) (ids : List TypeIndex) : UInt32 :=
  ids.foldl (fun total id => total + arena.slotsOf id) 0

theorem foldl_slots (arena : Arena) (ids : List TypeIndex) (total : UInt32) :
    ids.foldl (fun total id => total + arena.slotsOf id) total =
      total + arena.slotsTogether ids := by
  induction ids generalizing total with
  | nil => exact (UInt32.add_zero total).symm
  | cons id rest ih => rw [List.foldl_cons, ih, slotsTogether, UInt32.add_assoc]

theorem runningSlots_eq (arena : Arena) (ids : List TypeIndex) :
    arena.runningSlots ids = arena.slotsTogether ids := by
  rw [runningSlots, foldl_slots, UInt32.zero_add]

theorem toNat_runningSlots {kinds : List ElementKind} {ids : List TypeIndex}
    (h : List.Forall₂ (fun kind id => (arena.slotsOf id).toNat = kind.slots) kinds ids)
    (hlength : 2 * ids.length < UInt32.size) :
    (arena.runningSlots ids).toNat = ElementKind.slotCount kinds := by
  rw [runningSlots_eq, toNat_slotsTogether arena ids hlength]
  clear hlength
  induction h with
  | nil => rfl
  | cons hfirst _ ih => rw [slotCount, ElementKind.slotCount, hfirst, ih]

theorem slotsOf_unfolded (h : arena.Unfolds id dimensions element)
    (helement : dimensions = 0 → element.IsReferent) :
    arena.slotsOf id = 1 := by
  cases h with
  | element hget _ => rw [slotsOf_eq hget, Ty.slots_of_isReferent (helement rfl)]
  | array hget _ =>
    rw [slotsOf_eq hget]
    rfl

end Arena

namespace LoaderSystem

open Arena (Placement)

variable {system : LoaderSystem} {arena : Arena} {view : Viewpoint} {loader : LoaderIndex}
  {type : FieldType} {placement : Placement} {id : TypeIndex} {name : Text}

theorem element_of_sightType {dimensions : Nat} {element : Ty}
    (hname : (Element.field type).kind.name? = some name)
    (h : system.sightType loader type = .ok (.built dimensions element)) (hzero : dimensions = 0) :
    element.IsReferent := by
  rw [sightType] at h
  cases hbase : type.base with
  | primitive base =>
    rw [hbase] at h
    cases h
    rw [Element.name?_of_primitive hbase, if_pos hzero] at hname
    cases hname
  | object className =>
    rw [hbase] at h
    dsimp only at h
    split at h <;> cases h <;> exact ⟨rfl, fun hvoid => (by cases hvoid)⟩

theorem slotsOf_sightType {dimensions : Nat} {element : Ty}
    (h : system.sightType loader type = .ok (.built dimensions element))
    (hunfolds : arena.Unfolds id dimensions element) :
    (arena.slotsOf id).toNat = (Element.field type).kind.slots := by
  cases hname : (Element.field type).kind.name? with
  | none =>
    obtain ⟨base, hzero, hbase, hkind⟩ := Element.kind_of_name?_none hname
    rw [sightType, hbase, hzero] at h
    cases h
    cases hunfolds with
    | element hget _ =>
      rw [Arena.slotsOf_eq hget, hkind, ElementKind.slots_primitive]
      rfl
  | some name =>
    rw [Arena.slotsOf_unfolded hunfolds (element_of_sightType hname h),
      Element.kind_of_name? hname, ElementKind.slots_reference]
    rfl

theorem slotsOf_holds (htable : GivesOnly Ty.IsReferent arena view.references)
    (hplacement : system.placement view loader (.field type) = .ok placement)
    (hholds : arena.Holds placement id) :
    (arena.slotsOf id).toNat = (Element.field type).kind.slots := by
  cases placement with
  | known known =>
    obtain ⟨name, hname, hentry⟩ := lookup_of_placement hplacement
    cases hholds
    obtain ⟨found, hget, hreferent⟩ := htable name id hentry
    rw [Arena.slotsOf_eq hget, Ty.slots_of_isReferent hreferent, Element.kind_of_name? hname,
      ElementKind.slots_reference]
    rfl
  | built dimensions element => exact slotsOf_sightType (sightType_of_built hplacement) hholds

end LoaderSystem

def Scanner.parameterKinds (elements : List PlacedElement) : List ElementKind :=
  (elements.filter fun placed => !placed.isReturn).map (·.element.kind)

theorem Scanner.parameterKinds_elements (descriptor : Descriptor) :
    parameterKinds descriptor.elements = descriptor.parameterKinds := by
  simp [parameterKinds, Descriptor.elements, Descriptor.parameterKinds, List.filter_map,
    Function.comp_def]

namespace Signature

/-- A text of fewer than 2^31 characters alone decides how many slots the arguments take, and the
counter shows the exact number after each of them. -/
theorem slots_follow_text {arena : Arena} (harena : arena.Reached) (system : LoaderSystem)
    {text : Text} (hlength : 2 * text.length < UInt32.size) {descriptor : Descriptor}
    (hread : Descriptor.ofText? text = some descriptor) {view : Viewpoint}
    (htable : ∀ name id, view.references.lookup name = some id →
      ∃ type, arena.get? id = some type ∧ type.IsReferent)
    {signature : Signature}
    (hbuilt : (build view descriptor arena system).answer = .ok signature) :
    ∃ scanner elements, Scanner.ofText? text = some scanner ∧
      scanner.elements? = some elements ∧
      signature.parameters.length + 1 = elements.length ∧
      signature.slots.toNat = ElementKind.slotCount (Scanner.parameterKinds elements) ∧
      ∀ count, ((build view descriptor arena system).arena.runningSlots
          (signature.parameters.take count)).toNat =
        ElementKind.slotCount ((Scanner.parameterKinds elements).take count) := by
  have hscanned := Scanner.elements?_ofText? text
  rw [hread, Option.map_some] at hscanned
  obtain ⟨scanner, hscanner, helements⟩ := Option.bind_eq_some_iff.mp hscanned
  obtain ⟨loader, hloader⟩ := LoaderSystem.definingLoader_of_build hbuilt
  have hrefers : LoaderSystem.GivesOnly Ty.IsReferent arena view.references := htable
  obtain ⟨-, hsettled, -⟩ :=
    LoaderSystem.settle_of_build harena.valid hloader hrefers.issued hbuilt
  have hslots := LoaderSystem.eq_ofTypes_of_build harena.valid hloader hrefers.issued hbuilt
  have hgrown := LoaderSystem.types_prefix_of_settle hsettled
  obtain ⟨hparameters, -⟩ := forall₂_types (LoaderSystem.settle_holds hsettled)
  have hkinds : List.Forall₂ (fun kind id =>
      ((build view descriptor arena system).arena.slotsOf id).toNat = kind.slots)
      descriptor.parameterKinds signature.parameters := by
    refine List.forall₂_map_left_iff.mpr (hparameters.imp ?_)
    rintro type id ⟨placement, hplacement, hholds⟩
    exact LoaderSystem.slotsOf_holds (hrefers.mono hgrown) hplacement hholds
  have hshort : 2 * signature.parameters.length < UInt32.size := by
    have hcount := descriptor.length_parameters_lt
    rw [← Descriptor.ofText?_eq_some_iff.mp hread, hparameters.length_eq] at hcount
    omega
  have htotal := Arena.toNat_runningSlots hkinds hshort
  refine ⟨scanner, descriptor.elements, hscanner, helements, ?_, ?_, fun count => ?_⟩
  · rw [← hparameters.length_eq]
    simp [Descriptor.elements]
  · rw [Scanner.parameterKinds_elements, ← htotal, Arena.runningSlots_eq]
    exact congrArg (fun built => built.slots.toNat) hslots
  · rw [Scanner.parameterKinds_elements]
    refine Arena.toNat_runningSlots (List.forall₂_take count hkinds) ?_
    have hle := List.length_take_le' count signature.parameters
    omega

theorem one_le_dimensions : 1 ≤ 255 := by decide

def wide : Descriptor :=
  ⟨[⟨0, .primitive .long, FieldType.zero_le_dimensions⟩, ⟨1, .primitive .long, one_le_dimensions⟩,
      .ofClass Workspace.shared, ⟨0, .primitive .double, FieldType.zero_le_dimensions⟩],
    .field ⟨0, .primitive .long, FieldType.zero_le_dimensions⟩⟩

theorem wide_takes_six_slots :
    ∃ signature, (build ⟨⟨9⟩, [(['p', '/', 'A'], ⟨11⟩)]⟩ wide Workspace.siblings.session.arena
        Workspace.siblings.system).answer = .ok signature ∧
      signature.parameters.length = 4 ∧ signature.slots.toNat = 6 ∧
      ((build ⟨⟨9⟩, [(['p', '/', 'A'], ⟨11⟩)]⟩ wide Workspace.siblings.session.arena
        Workspace.siblings.system).arena.runningSlots (signature.parameters.take 2)).toNat = 3 := by
  have hreferent : (Ty.placeholder ['p', '/', 'D'] ⟨2⟩).IsReferent := ⟨rfl, fun h => (by cases h)⟩
  have htable : LoaderSystem.GivesOnly Ty.IsReferent Workspace.siblings.session.arena
      [(['p', '/', 'A'], ⟨11⟩)] := LoaderSystem.givesOnly_singleton _ rfl hreferent
  obtain ⟨scanner, elements, hscanner, helements, hcount, hslots, hrunning⟩ :=
    @slots_follow_text _ ⟨_, Workspace.siblings_reached, rfl⟩ Workspace.siblings.system
      _ (by decide) wide (Descriptor.ofText?_text wide) ⟨⟨9⟩, _⟩ htable _ rfl
  cases hscanner
  cases (Scanner.elements?_before wide.parameters wide.result).symm.trans helements
  exact ⟨_, rfl, Nat.succ.inj hcount, hslots, hrunning 2⟩

end Signature

end MethodLinkage
