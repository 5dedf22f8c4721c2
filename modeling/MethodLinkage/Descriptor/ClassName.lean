import MethodLinkage.Text

/-!
# Class names

A binary class name is one or more non-empty identifiers joined by slashes. The
full stop, the semicolon and the opening bracket belong to no identifier, so a
name can neither leave its package path nor end its descriptor early.
-/

namespace MethodLinkage

def IsIdentifier (text : Text) : Prop :=
  text ≠ [] ∧ ∀ c ∈ text, c ≠ '.' ∧ c ≠ ';' ∧ c ≠ '['

def IsBinaryName (text : Text) : Prop := ∀ part ∈ text.segments, IsIdentifier part

instance (text : Text) : Decidable (IsIdentifier text) :=
  -- the characters of the text are tried, not all that there are
  letI : Decidable (∀ c ∈ text, c ≠ '.' ∧ c ≠ ';' ∧ c ≠ '[') := List.decidableBAll _ text
  inferInstanceAs (Decidable (_ ∧ _))

instance (text : Text) : Decidable (IsBinaryName text) :=
  inferInstanceAs (Decidable (∀ part ∈ text.segments, IsIdentifier part))

structure ClassName where
  text : Text
  valid : IsBinaryName text
  deriving DecidableEq

namespace ClassName

def ofText? (text : Text) : Option ClassName :=
  if h : IsBinaryName text then some ⟨text, h⟩ else none

theorem clean (name : ClassName) {c : Char} (hc : c ∈ name.text) :
    c ≠ '.' ∧ c ≠ ';' ∧ c ≠ '[' := by
  by_cases hs : c = '/'
  · subst hs; decide
  · obtain ⟨part, hpart, hmem⟩ := Text.exists_segment_of_mem hc hs
    exact (name.valid part hpart).2 c hmem

theorem ofText?_text (name : ClassName) : ofText? name.text = some name := by
  simp [ofText?, name.valid]

theorem ofText?_eq_some_iff {text : Text} {name : ClassName} :
    ofText? text = some name ↔ text = name.text := by
  constructor
  · intro h
    unfold ofText? at h
    split at h
    · cases h; rfl
    · cases h
  · rintro rfl
    exact name.ofText?_text

end ClassName

def isArrayName (name : Text) : Bool := name.head? = some '['

/-- The descriptor of the class called `name`: array names are descriptors
already, any other name stands between a capital L and a semicolon. -/
def classDescriptor (name : Text) : Text :=
  if isArrayName name then name else 'L' :: name ++ [';']

end MethodLinkage
