import MethodLinkage.Descriptor.Element

/-!
# Method descriptors

A method descriptor is the list of its parameter types and its return element.
Its text is the parameters in parentheses followed by the return element;
reading accepts exactly the texts that some descriptor has
(`ofText?_eq_some_iff`).
-/

namespace MethodLinkage

structure Descriptor where
  parameters : List FieldType
  result : Element
  deriving DecidableEq

structure PlacedElement where
  element : Element
  isReturn : Bool
  deriving DecidableEq

namespace Descriptor

def parameterText (parameters : List FieldType) : Text := parameters.flatMap FieldType.text

def text (descriptor : Descriptor) : Text :=
  '(' :: parameterText descriptor.parameters ++ ')' :: descriptor.result.text

def readParameters (source : Text) : Option (List FieldType × Text) :=
  match source with
  | ')' :: rest => some ([], rest)
  | source =>
    match _shorter : FieldType.read source with
    | none => none
    | some (type, rest) =>
      (readParameters rest).map fun (types, after) => (type :: types, after)
  termination_by source.length
  decreasing_by exact FieldType.length_lt_of_read _shorter

def ofText? : Text → Option Descriptor
  | '(' :: source =>
    match readParameters source with
    | none => none
    | some (parameters, rest) =>
      match Element.read rest with
      | some (result, []) => some ⟨parameters, result⟩
      | _ => none
  | _ => none

def elements (descriptor : Descriptor) : List PlacedElement :=
  descriptor.parameters.map (fun type => ⟨.field type, false⟩) ++ [⟨descriptor.result, true⟩]

theorem readParameters_append (parameters : List FieldType) (rest : Text) :
    readParameters (parameterText parameters ++ ')' :: rest) = some (parameters, rest) := by
  induction parameters with
  | nil => simp [parameterText, readParameters]
  | cons type types ih =>
    have hread := type.read_append (parameterText types ++ ')' :: rest)
    have hhead : ∀ tail, type.text ++ (parameterText types ++ ')' :: rest) ≠ ')' :: tail := by
      intro tail h
      obtain ⟨c, more, htype, -, hc⟩ := type.exists_text_eq_cons
      simp [htype, hc] at h
    rw [show parameterText (type :: types) ++ ')' :: rest =
      type.text ++ (parameterText types ++ ')' :: rest) by simp [parameterText]]
    unfold readParameters
    split
    · next tail heq => exact absurd heq (hhead tail)
    · split
      · next hnone => rw [hread] at hnone; cases hnone
      · next first after hsome =>
        rw [hread] at hsome
        cases hsome
        simp [ih]

theorem eq_append_of_readParameters {source rest : Text} {parameters : List FieldType}
    (h : readParameters source = some (parameters, rest)) :
    source = parameterText parameters ++ ')' :: rest := by
  fun_induction readParameters source generalizing parameters rest with
  | case1 after => cases h; rfl
  | case2 => cases h
  | case3 source hsource type after hread ih =>
    obtain ⟨⟨types, tail⟩, htypes, hpair⟩ := Option.map_eq_some_iff.mp h
    cases hpair
    rw [FieldType.eq_append_of_read hread, ih htypes]
    simp [parameterText]

theorem ofText?_text (descriptor : Descriptor) : ofText? descriptor.text = some descriptor := by
  have hread := Element.read_append descriptor.result []
  rw [List.append_nil] at hread
  rw [text, List.cons_append, ofText?, readParameters_append]
  simp [hread]

/-- Reading accepts exactly what writing produces, so each descriptor has one text. -/
theorem ofText?_eq_some_iff {source : Text} {descriptor : Descriptor} :
    ofText? source = some descriptor ↔ source = descriptor.text := by
  constructor
  · intro h
    unfold ofText? at h
    split at h
    · split at h
      · cases h
      · next parameters rest hparameters =>
        split at h
        · next result hresult =>
          cases h
          rw [eq_append_of_readParameters hparameters, Element.eq_append_of_read hresult]
          simp [text]
        · cases h
    · cases h
  · rintro rfl
    exact ofText?_text descriptor

theorem text_injective {a b : Descriptor} (h : a.text = b.text) : a = b := by
  have ha := ofText?_text a
  rw [h, ofText?_text b] at ha
  exact (Option.some.inj ha).symm

end Descriptor

end MethodLinkage
