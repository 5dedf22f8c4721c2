import MethodLinkage.Proofs.ScannerRuns
import MethodLinkage.Workspace

/-!
# The grammar of method descriptors

The format says which texts are method descriptors without saying how one is
read: names are identifiers joined by slashes, a field is at most 255 brackets
before a primitive letter or a name in its frame, and a descriptor is a list of
fields in parentheses before its result. Each layer has exactly the texts that
some value of the model's type has, so reading accepts the grammar and no more.
-/

namespace MethodLinkage
namespace DescriptorGrammar

def SpellsIdentifier (text : Text) : Prop :=
  text ≠ [] ∧ ∀ c ∈ text, c ∉ ['/', '.', ';', '[']

def SpellsName (text : Text) : Prop :=
  ∃ identifiers : List Text, identifiers ≠ [] ∧
    (∀ identifier ∈ identifiers, SpellsIdentifier identifier) ∧
    text = ['/'].intercalate identifiers

inductive SpellsBase : Text → Prop where
  | primitive {letter : Char} : letter ∈ ['Z', 'C', 'F', 'D', 'B', 'S', 'I', 'J'] →
      SpellsBase [letter]
  | object {name : Text} : SpellsName name → SpellsBase ('L' :: name ++ [';'])

def SpellsField (text : Text) : Prop :=
  ∃ dimensions base, dimensions ≤ 255 ∧ SpellsBase base ∧
    text = List.replicate dimensions '[' ++ base

def SpellsResult (text : Text) : Prop := SpellsField text ∨ text = ['V']

def SpellsDescriptor (text : Text) : Prop :=
  ∃ (fields : List Text) (result : Text), (∀ field ∈ fields, SpellsField field) ∧
    SpellsResult result ∧ text = '(' :: fields.flatten ++ ')' :: result

theorem slash_not_mem_segment {text part : Text} (h : part ∈ text.segments) : '/' ∉ part := by
  induction text generalizing part with
  | nil =>
    rw [Text.segments_nil, List.mem_singleton] at h
    simp [h]
  | cons c rest ih =>
    rw [Text.segments, List.splitOn_cons_eq_if_modifyHead] at h
    split at h
    · rcases List.mem_cons.mp h with rfl | h
      · simp
      · exact ih h
    · next hc =>
      have hne : rest.splitOn '/' ≠ [] := by simp
      obtain ⟨first, more, hsplit⟩ := List.exists_cons_of_ne_nil hne
      rw [hsplit, List.modifyHead_cons] at h
      rcases List.mem_cons.mp h with rfl | h
      · have hmem : first ∈ Text.segments rest := by
          simp [Text.segments, hsplit]
        have hfirst := ih hmem
        have hslash : '/' ≠ c := by
          rintro rfl
          simp at hc
        simp [hslash, hfirst]
      · exact ih (by simp [Text.segments, hsplit, h])

theorem spellsIdentifier_iff {text : Text} :
    SpellsIdentifier text ↔ IsIdentifier text ∧ '/' ∉ text := by
  constructor
  · rintro ⟨hne, hclean⟩
    refine ⟨⟨hne, fun c hc => ?_⟩, fun hslash => by simpa using hclean _ hslash⟩
    have h := hclean c hc
    simp only [List.mem_cons, List.not_mem_nil, or_false, not_or] at h
    exact h.2
  · rintro ⟨⟨hne, hclean⟩, hslash⟩
    refine ⟨hne, fun c hc => ?_⟩
    have hc' : c ≠ '/' := by
      rintro rfl
      exact hslash hc
    simpa [hc'] using hclean c hc

theorem isBinaryName_iff {text : Text} : IsBinaryName text ↔ SpellsName text := by
  constructor
  · intro h
    refine ⟨text.segments, by simp [Text.segments], fun part hpart => ?_,
      text.intercalate_segments.symm⟩
    exact spellsIdentifier_iff.mpr ⟨h part hpart, slash_not_mem_segment hpart⟩
  · rintro ⟨identifiers, hne, hspelled, rfl⟩
    have hslash : ∀ identifier ∈ identifiers, '/' ∉ identifier := by
      intro identifier hmem
      exact (spellsIdentifier_iff.mp (hspelled identifier hmem)).2
    intro part hpart
    rw [Text.segments, List.splitOn_intercalate '/' hslash hne] at hpart
    exact (spellsIdentifier_iff.mp (hspelled part hpart)).1

theorem spellsBase_iff {text : Text} : SpellsBase text ↔ ∃ base : BaseType, base.text = text := by
  constructor
  · intro h
    cases h with
    | @primitive letter hletter =>
      have hsome : ∀ c ∈ ['Z', 'C', 'F', 'D', 'B', 'S', 'I', 'J'],
          (Primitive.ofLetter? c).isSome := by
        simp [Primitive.ofLetter?]
      obtain ⟨type, htype⟩ := Option.isSome_iff_exists.mp (hsome letter hletter)
      exact ⟨.primitive type, by rw [BaseType.text, Primitive.letter_of_ofLetter? htype]⟩
    | @object name hname => exact ⟨.object ⟨name, isBinaryName_iff.mpr hname⟩, rfl⟩
  · rintro ⟨base, rfl⟩
    cases base with
    | primitive type => exact .primitive (by cases type <;> decide)
    | object name => exact .object (isBinaryName_iff.mp name.valid)

theorem spellsField_iff {text : Text} :
    SpellsField text ↔ ∃ type : FieldType, type.text = text := by
  constructor
  · rintro ⟨dimensions, base, hle, hbase, rfl⟩
    obtain ⟨base, rfl⟩ := spellsBase_iff.mp hbase
    exact ⟨⟨dimensions, base, hle⟩, rfl⟩
  · rintro ⟨type, rfl⟩
    exact ⟨type.dimensions, type.base.text, type.dimensions_le,
      spellsBase_iff.mpr ⟨type.base, rfl⟩, rfl⟩

theorem spellsResult_iff {text : Text} :
    SpellsResult text ↔ ∃ element : Element, element.text = text := by
  constructor
  · rintro (h | rfl)
    · obtain ⟨type, rfl⟩ := spellsField_iff.mp h
      exact ⟨.field type, rfl⟩
    · exact ⟨.void, rfl⟩
  · rintro ⟨element, rfl⟩
    cases element with
    | field type => exact .inl (spellsField_iff.mpr ⟨type, rfl⟩)
    | void => exact .inr rfl

theorem exists_fieldTypes {fields : List Text} (h : ∀ field ∈ fields, SpellsField field) :
    ∃ types : List FieldType, types.map FieldType.text = fields := by
  induction fields with
  | nil => exact ⟨[], rfl⟩
  | cons field rest ih =>
    obtain ⟨type, htype⟩ := spellsField_iff.mp (h field List.mem_cons_self)
    obtain ⟨types, htypes⟩ := ih fun other hother => h other (List.mem_cons_of_mem _ hother)
    exact ⟨type :: types, by rw [List.map_cons, htype, htypes]⟩

theorem spellsDescriptor_iff {text : Text} :
    SpellsDescriptor text ↔ ∃ descriptor : Descriptor, descriptor.text = text := by
  constructor
  · rintro ⟨fields, result, hfields, hresult, rfl⟩
    obtain ⟨types, rfl⟩ := exists_fieldTypes hfields
    obtain ⟨element, rfl⟩ := spellsResult_iff.mp hresult
    exact ⟨⟨types, element⟩, by rw [Descriptor.text, Descriptor.parameterText, List.flatMap_def]⟩
  · rintro ⟨descriptor, rfl⟩
    refine ⟨descriptor.parameters.map FieldType.text, descriptor.result.text, ?_,
      spellsResult_iff.mpr ⟨_, rfl⟩, ?_⟩
    · intro field hfield
      obtain ⟨type, -, rfl⟩ := List.mem_map.mp hfield
      exact spellsField_iff.mpr ⟨type, rfl⟩
    · rw [Descriptor.text, Descriptor.parameterText, List.flatMap_def]

theorem ofText?_isSome_iff {text : Text} :
    (Descriptor.ofText? text).isSome ↔ SpellsDescriptor text := by
  rw [spellsDescriptor_iff, Option.isSome_iff_exists]
  constructor
  · rintro ⟨descriptor, h⟩
    exact ⟨descriptor, (Descriptor.ofText?_eq_some_iff.mp h).symm⟩
  · rintro ⟨descriptor, h⟩
    exact ⟨descriptor, Descriptor.ofText?_eq_some_iff.mpr h.symm⟩

theorem scans_iff {text : Text} :
    ((Scanner.ofText? text).bind Scanner.elements?).isSome ↔ SpellsDescriptor text := by
  rw [Scanner.elements?_ofText?, Option.isSome_map, ofText?_isSome_iff]

theorem descriptor?_spec (session : Session) (text : Text) :
    ((session.descriptor? text).isSome ↔ SpellsDescriptor text) ∧
    ∀ descriptor after, session.descriptor? text = some (descriptor, after) →
      descriptor.text = text := by
  have hpool := session.descriptor?_eq text
  constructor
  · rw [← ofText?_isSome_iff, ← hpool, Option.isSome_map]
  · intro descriptor after h
    rw [h, Option.map_some] at hpool
    exact (Descriptor.ofText?_eq_some_iff.mp hpool.symm).symm

theorem perform_symbol_answer (workspace : Workspace) (text : Text) :
    (SpellsDescriptor text → (workspace.perform (.symbol text)).answer = .ok (.text text)) ∧
    (¬ SpellsDescriptor text →
      (workspace.perform (.symbol text)).answer = .error .invalidDescriptor) := by
  obtain ⟨hsome, htext⟩ := descriptor?_spec workspace.session text
  cases h : workspace.session.descriptor? text with
  | none =>
    have hnot : ¬ SpellsDescriptor text := by
      rw [← hsome, h]
      simp
    refine ⟨fun hspelled => absurd hspelled hnot, fun _ => ?_⟩
    simp [Workspace.perform, Workspace.withDescriptor, h, Workspace.refuse]
  | some pooled =>
    obtain ⟨descriptor, after⟩ := pooled
    have hspelled : SpellsDescriptor text := by
      rw [← hsome, h]
      rfl
    refine ⟨fun _ => ?_, fun hnot => absurd hspelled hnot⟩
    simp [Workspace.perform, Workspace.withDescriptor, h, Workspace.answer,
      htext descriptor after h]

/-- Reading a text and scanning it succeed exactly when it spells a descriptor, alone and in a
session after any history; a session refuses every other text as malformed. -/
theorem reads_exactly_the_grammar (text : Text) :
    ((∃ descriptor, Descriptor.ofText? text = some descriptor ∧ descriptor.text = text) ↔
      SpellsDescriptor text) ∧
    (Descriptor.ofText? text = none ↔ ¬ SpellsDescriptor text) ∧
    (((Scanner.ofText? text).bind Scanner.elements?).isSome ↔ SpellsDescriptor text) ∧
    ∀ (files : FileTree) (bootstrap : ClassPath) (commands : List Command),
      let workspace := ((Workspace.start files bootstrap).run commands).2
      ((workspace.session.descriptor? text).isSome ↔ SpellsDescriptor text) ∧
      (∀ descriptor after, workspace.session.descriptor? text = some (descriptor, after) →
        descriptor.text = text) ∧
      (SpellsDescriptor text → (workspace.perform (.symbol text)).answer = .ok (.text text)) ∧
      (¬ SpellsDescriptor text →
        (workspace.perform (.symbol text)).answer = .error .invalidDescriptor) := by
  refine ⟨?_, ?_, scans_iff, fun files bootstrap commands => ?_⟩
  · rw [spellsDescriptor_iff]
    constructor
    · rintro ⟨descriptor, -, htext⟩
      exact ⟨descriptor, htext⟩
    · rintro ⟨descriptor, rfl⟩
      exact ⟨descriptor, Descriptor.ofText?_text descriptor, rfl⟩
  · rw [← ofText?_isSome_iff]
    simp
  · obtain ⟨haccepts, htext⟩ :=
      descriptor?_spec ((Workspace.start files bootstrap).run commands).2.session text
    exact ⟨haccepts, htext, perform_symbol_answer _ text⟩

end DescriptorGrammar
end MethodLinkage
