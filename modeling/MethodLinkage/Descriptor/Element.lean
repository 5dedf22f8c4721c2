import MethodLinkage.Descriptor.FieldType

/-!
# Descriptor elements

An element is what one position of a method descriptor holds: a field type, or
`void`, which only a return position admits. Elements are self-delimiting in the
same sense as field types.
-/

namespace MethodLinkage

inductive Element where
  | field (type : FieldType)
  | void
  deriving DecidableEq

inductive ElementKind where
  | primitive (type : Primitive)
  | void
  | reference (name : Text)
  deriving DecidableEq

def ElementKind.isReference : ElementKind → Bool
  | reference _ => true
  | _ => false

namespace Element

def text : Element → Text
  | field type => type.text
  | void => ['V']

def read : Text → Option (Element × Text)
  | 'V' :: rest => some (void, rest)
  | source => (FieldType.read source).map fun (type, rest) => (field type, rest)

/-- A class is referred to by its name, an array by its whole text. -/
def kind : Element → ElementKind
  | void => .void
  | field ⟨0, .primitive type, _⟩ => .primitive type
  | field ⟨0, .object name, _⟩ => .reference name.text
  | field type@⟨_ + 1, _, _⟩ => .reference type.text

theorem read_field_append (type : FieldType) (rest : Text) :
    read (type.text ++ rest) = some (field type, rest) := by
  have hread := type.read_append rest
  obtain ⟨c, more, htype, hV, -⟩ := type.exists_text_eq_cons
  have hhead : ∀ tail, type.text ++ rest ≠ 'V' :: tail := by
    intro tail h
    simp [htype, hV] at h
  unfold read
  split
  · next tail heq => exact absurd heq (hhead tail)
  · simp [hread]

theorem read_append (element : Element) (rest : Text) :
    read (element.text ++ rest) = some (element, rest) := by
  cases element with
  | field type => exact read_field_append type rest
  | void => rfl

theorem eq_append_of_read {source rest : Text} {element : Element}
    (h : read source = some (element, rest)) : source = element.text ++ rest := by
  unfold read at h
  split at h
  · cases h; rfl
  · obtain ⟨⟨type, after⟩, htype, hpair⟩ := Option.map_eq_some_iff.mp h
    cases hpair
    exact FieldType.eq_append_of_read htype

theorem length_lt_of_read {source rest : Text} {element : Element}
    (h : read source = some (element, rest)) : rest.length < source.length := by
  rw [eq_append_of_read h]
  cases element with
  | void => simp [text]
  | field type =>
    obtain ⟨c, more, htype, -⟩ := type.exists_text_eq_cons
    rw [text, htype, List.cons_append, List.length_cons, List.length_append]
    omega

end Element

end MethodLinkage
