import MethodLinkage.Descriptor

/-!
# Scanners

A scanner goes through the text of a method descriptor and gives one element at a
time: the parameters, then the return element, then nothing for ever. It reads no
further than the element it gives, so it notices a malformed text only when it
comes to it. A text is a descriptor if a scanner goes through it to the end.
-/

namespace MethodLinkage

structure Scanner where
  remaining : Text
  onReturn : Bool
  isDone : Bool
  deriving DecidableEq

namespace Scanner

def ofText? : Text → Option Scanner
  | '(' :: source => some ⟨source, false, false⟩
  | _ => none

def passParenthesis (scanner : Scanner) : Scanner :=
  match scanner.onReturn, scanner.remaining with
  | false, ')' :: rest => { scanner with remaining := rest, onReturn := true }
  | _, _ => scanner

/-- Only the return element may be `void`, and nothing follows it. -/
def admits (scanner : Scanner) (element : Element) (rest : Text) : Bool :=
  if scanner.onReturn then rest.isEmpty else element != .void

/-- The next element, if there is one, and the scanner behind it. -/
def next? (scanner : Scanner) : Option (Option PlacedElement × Scanner) :=
  if scanner.isDone then some (none, scanner)
  else
    let scanner := scanner.passParenthesis
    match Element.read scanner.remaining with
    | none => none
    | some (element, rest) =>
      if scanner.admits element rest then
        some (some ⟨element, scanner.onReturn⟩, ⟨rest, scanner.onReturn, scanner.onReturn⟩)
      else none

def answers? : Nat → Scanner → Option (List (Option PlacedElement))
  | 0, _ => some []
  | count + 1, scanner =>
    match scanner.next? with
    | none => none
    | some (answer, after) => (answers? count after).map (answer :: ·)

def measure (scanner : Scanner) : Nat :=
  if scanner.isDone then 0 else scanner.remaining.length + 1

theorem length_passParenthesis_le (scanner : Scanner) :
    scanner.passParenthesis.remaining.length ≤ scanner.remaining.length := by
  unfold passParenthesis
  split
  · next rest _ hremaining => simp [hremaining]
  · exact Nat.le_refl _

theorem measure_lt_of_next? {scanner after : Scanner} {placed : PlacedElement}
    (h : scanner.next? = some (some placed, after)) : after.measure < scanner.measure := by
  unfold next? at h
  split at h
  · cases h
  · next hrunning =>
    have hle := scanner.length_passParenthesis_le
    dsimp only at h
    split at h
    · cases h
    · next element rest hread =>
      have hlt := Element.length_lt_of_read hread
      split at h
      · cases h
        unfold measure
        rw [if_neg hrunning]
        dsimp only
        split <;> omega
      · cases h

def elements? (scanner : Scanner) : Option (List PlacedElement) :=
  match _smaller : scanner.next? with
  | none => none
  | some (none, _) => some []
  | some (some placed, after) => after.elements?.map (placed :: ·)
  termination_by scanner.measure
  decreasing_by exact measure_lt_of_next? _smaller

end Scanner

end MethodLinkage
