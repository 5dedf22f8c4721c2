import MethodLinkage.Text

/-!
# Primitive types

The eight primitive types, the letter that stands for each in a descriptor, and
the slots a value takes: two for the wide types, one for the rest.
-/

namespace MethodLinkage

inductive Primitive where
  | boolean | char | float | double | byte | short | int | long
  deriving DecidableEq

namespace Primitive

/-- The primitives in the order in which every arena numbers them. -/
def all : List Primitive := [boolean, char, float, double, byte, short, int, long]

def letter : Primitive → Char
  | boolean => 'Z'
  | char => 'C'
  | float => 'F'
  | double => 'D'
  | byte => 'B'
  | short => 'S'
  | int => 'I'
  | long => 'J'

def ofLetter? : Char → Option Primitive
  | 'Z' => some boolean
  | 'C' => some char
  | 'F' => some float
  | 'D' => some double
  | 'B' => some byte
  | 'S' => some short
  | 'I' => some int
  | 'J' => some long
  | _ => none

def keyword : Primitive → String
  | boolean => "boolean"
  | char => "char"
  | float => "float"
  | double => "double"
  | byte => "byte"
  | short => "short"
  | int => "int"
  | long => "long"

def isWide : Primitive → Bool
  | double | long => true
  | _ => false

def slots (p : Primitive) : UInt32 := if p.isWide then 2 else 1

theorem ofLetter?_letter (p : Primitive) : ofLetter? p.letter = some p := by
  cases p <;> rfl

theorem letter_of_ofLetter? {c : Char} {p : Primitive} (h : ofLetter? c = some p) :
    p.letter = c := by
  unfold ofLetter? at h
  split at h <;> cases h <;> rfl

theorem ofLetter?_eq_some_iff {c : Char} {p : Primitive} :
    ofLetter? c = some p ↔ c = p.letter :=
  ⟨fun h => (letter_of_ofLetter? h).symm, fun h => h ▸ ofLetter?_letter p⟩

end Primitive

end MethodLinkage
