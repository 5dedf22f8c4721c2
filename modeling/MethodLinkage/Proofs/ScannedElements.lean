import MethodLinkage.Proofs.DescriptorGrammar
import MethodLinkage.Proofs.SignatureSpelling

/-!
# What a scanner gives

A list of well-formed parameters and a well-formed result are rendered as a text,
and a scanner gives just these back: each parameter, the result, and nothing after
it. Every text that is accepted is rendered so, and in one way only. A class name
may hold any character that acts as structure elsewhere; what ends it is the first
semicolon, and a scanner comes to a new element only behind it.
-/

namespace MethodLinkage

open DescriptorGrammar (SpellsName SpellsBase isBinaryName_iff spellsBase_iff)

namespace ElementKind

def text : ElementKind → Text
  | primitive type => [type.letter]
  | void => ['V']
  | reference name => classDescriptor name

inductive IsParameter : ElementKind → Prop where
  | primitive (type : Primitive) : IsParameter (.primitive type)
  | classNamed {name : Text} : SpellsName name → IsParameter (.reference name)
  | array {dimensions : Nat} {base : Text} : 1 ≤ dimensions → dimensions ≤ 255 →
      SpellsBase base → IsParameter (.reference (List.replicate dimensions '[' ++ base))

def IsResult (kind : ElementKind) : Prop := kind.IsParameter ∨ kind = .void

theorem isParameter_iff {kind : ElementKind} :
    kind.IsParameter ↔ ∃ type : FieldType, (Element.field type).kind = kind := by
  constructor
  · intro h
    cases h with
    | primitive type => exact ⟨⟨0, .primitive type, by decide⟩, rfl⟩
    | classNamed hname =>
      exact ⟨⟨0, .object ⟨_, isBinaryName_iff.mpr hname⟩, by decide⟩, rfl⟩
    | @array dimensions base hpos hle hbase =>
      obtain ⟨base, rfl⟩ := spellsBase_iff.mp hbase
      obtain ⟨n, rfl⟩ := Nat.exists_eq_add_of_le' hpos
      exact ⟨⟨n + 1, base, hle⟩, rfl⟩
  · intro ⟨type, hkind⟩
    rw [← hkind]
    obtain ⟨_ | n, base, hle⟩ := type
    · cases base with
      | primitive type => exact .primitive type
      | object name => exact .classNamed (isBinaryName_iff.mp name.valid)
    · exact .array (Nat.le_add_left 1 n) hle (spellsBase_iff.mpr ⟨base, rfl⟩)

theorem isResult_iff {kind : ElementKind} :
    kind.IsResult ↔ ∃ element : Element, element.kind = kind := by
  constructor
  · intro h
    rcases h with h | h
    · obtain ⟨type, htype⟩ := isParameter_iff.mp h
      exact ⟨.field type, htype⟩
    · exact ⟨.void, h.symm⟩
  · intro ⟨element, hkind⟩
    cases element with
    | field type => exact .inl (isParameter_iff.mpr ⟨type, hkind⟩)
    | void => exact .inr hkind.symm

end ElementKind

namespace Element

theorem text_kind (element : Element) : element.kind.text = element.text := by
  cases element with
  | void => rfl
  | field type =>
    cases hname : (Element.field type).kind.name? with
    | none =>
      obtain ⟨base, hzero, hbase, hkind⟩ := kind_of_name?_none hname
      rw [hkind]
      simp [ElementKind.text, text, FieldType.text, hzero, hbase, BaseType.text]
    | some name =>
      rw [kind_of_name? hname]
      exact classDescriptor_of_name? hname

end Element

namespace Descriptor

def parameterKinds (descriptor : Descriptor) : List ElementKind :=
  descriptor.parameters.map fun type => (Element.field type).kind

def textOfKinds (parameters : List ElementKind) (result : ElementKind) : Text :=
  '(' :: parameters.flatMap ElementKind.text ++ ')' :: result.text

theorem textOfKinds_eq (descriptor : Descriptor) :
    textOfKinds descriptor.parameterKinds descriptor.result.kind = descriptor.text := by
  have hparameters : descriptor.parameterKinds.flatMap ElementKind.text =
      parameterText descriptor.parameters := by
    simp only [parameterKinds, List.flatMap_map, Element.text_kind]
    rfl
  rw [textOfKinds, hparameters, Element.text_kind]
  rfl

theorem exists_parameterKinds {parameters : List ElementKind} {result : ElementKind}
    (hparameters : ∀ parameter ∈ parameters, parameter.IsParameter) (hresult : result.IsResult) :
    ∃ descriptor : Descriptor,
      descriptor.parameterKinds = parameters ∧ descriptor.result.kind = result := by
  obtain ⟨element, helement⟩ := ElementKind.isResult_iff.mp hresult
  induction parameters with
  | nil => exact ⟨⟨[], element⟩, rfl, helement⟩
  | cons first rest ih =>
    obtain ⟨hfirst, hrest⟩ := List.forall_mem_cons.mp hparameters
    obtain ⟨type, htype⟩ := ElementKind.isParameter_iff.mp hfirst
    obtain ⟨descriptor, hkinds, hlast⟩ := ih hrest
    refine ⟨⟨type :: descriptor.parameters, descriptor.result⟩, ?_, hlast⟩
    rw [← hkinds, ← htype]
    rfl

theorem isParameter_of_mem_parameterKinds {descriptor : Descriptor} {kind : ElementKind}
    (h : kind ∈ descriptor.parameterKinds) : kind.IsParameter := by
  obtain ⟨type, -, hkind⟩ := List.mem_map.mp h
  exact ElementKind.isParameter_iff.mpr ⟨type, hkind⟩

/-- The kinds in their places: every one a parameter but the last. -/
def placedKinds (parameters : List ElementKind) (result : ElementKind) :
    List (ElementKind × Bool) :=
  parameters.map (·, false) ++ [(result, true)]

theorem placedKinds_eq (descriptor : Descriptor) :
    descriptor.elements.map (fun placed => (placed.element.kind, placed.isReturn)) =
      placedKinds descriptor.parameterKinds descriptor.result.kind := by
  simp [elements, placedKinds, parameterKinds]

end Descriptor

namespace Scanner

open Descriptor (textOfKinds placedKinds)

/-- A scanner goes through the text without failing and gives the kinds in their places. -/
def Scans (text : Text) (kinds : List (ElementKind × Bool)) : Prop :=
  ∃ scanner elements, ofText? text = some scanner ∧ scanner.elements? = some elements ∧
    scanner.Yields elements ∧
    elements.map (fun placed => (placed.element.kind, placed.isReturn)) = kinds

theorem scans_text (descriptor : Descriptor) :
    Scans descriptor.text (placedKinds descriptor.parameterKinds descriptor.result.kind) :=
  ⟨_, _, ofText?_text descriptor, elements?_before _ _, yields_before _ _,
    descriptor.placedKinds_eq⟩

/-- What is rendered is scanned back, what is scanned is rendered back, and no two lists of
elements have one text. -/
theorem scanning_inverts_rendering :
    (∀ parameters result, (∀ parameter ∈ parameters, ElementKind.IsParameter parameter) →
      ElementKind.IsResult result →
      (Descriptor.ofText? (textOfKinds parameters result)).isSome ∧
        Scans (textOfKinds parameters result) (placedKinds parameters result)) ∧
    (∀ text, (Descriptor.ofText? text).isSome → ∃ parameters result,
      (∀ parameter ∈ parameters, ElementKind.IsParameter parameter) ∧
        ElementKind.IsResult result ∧ Scans text (placedKinds parameters result) ∧
        textOfKinds parameters result = text) ∧
    ∀ parameters result others last,
      (∀ parameter ∈ parameters, ElementKind.IsParameter parameter) →
      ElementKind.IsResult result → (∀ other ∈ others, ElementKind.IsParameter other) →
      ElementKind.IsResult last → textOfKinds parameters result = textOfKinds others last →
      parameters = others ∧ result = last := by
  refine ⟨?_, ?_, ?_⟩
  · intro parameters result hparameters hresult
    obtain ⟨descriptor, rfl, rfl⟩ := Descriptor.exists_parameterKinds hparameters hresult
    rw [Descriptor.textOfKinds_eq, Descriptor.ofText?_text]
    exact ⟨rfl, scans_text descriptor⟩
  · intro text haccepted
    obtain ⟨descriptor, hdescriptor⟩ := Option.isSome_iff_exists.mp haccepted
    rw [Descriptor.ofText?_eq_some_iff.mp hdescriptor]
    exact ⟨descriptor.parameterKinds, descriptor.result.kind,
      fun _ => Descriptor.isParameter_of_mem_parameterKinds,
      ElementKind.isResult_iff.mpr ⟨_, rfl⟩, scans_text descriptor, descriptor.textOfKinds_eq⟩
  · intro parameters result others last hparameters hresult hothers hlast htext
    obtain ⟨descriptor, rfl, rfl⟩ := Descriptor.exists_parameterKinds hparameters hresult
    obtain ⟨other, rfl, rfl⟩ := Descriptor.exists_parameterKinds hothers hlast
    rw [Descriptor.textOfKinds_eq, Descriptor.textOfKinds_eq] at htext
    rw [Descriptor.text_injective htext]
    exact ⟨rfl, rfl⟩

theorem scans_class_called_as_a_descriptor :
    Scans ['(', 'L', '(', 'I', ')', 'V', ';', '[', '[', 'J', ')', 'V']
      [(.reference ['(', 'I', ')', 'V'], false), (.reference ['[', '[', 'J'], false),
        (.void, true)] := by
  have hname : ElementKind.IsParameter (.reference ['(', 'I', ')', 'V']) :=
    .classNamed (isBinaryName_iff.mp (by decide))
  have harray : ElementKind.IsParameter (.reference (List.replicate 2 '[' ++ ['J'])) :=
    .array (by decide) (by decide) (.primitive (by decide))
  exact (scanning_inverts_rendering.1 [_, _] .void
    (List.forall_mem_cons.mpr ⟨hname, List.forall_mem_cons.mpr ⟨harray, List.forall_mem_nil _⟩⟩)
    (.inr rfl)).2

end Scanner

end MethodLinkage
