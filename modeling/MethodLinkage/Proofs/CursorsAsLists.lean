import MethodLinkage.Proofs.CursorLockstep

/-!
# Cursors as lists

A cursor over a signature is as good as the list of the elements that it has left: the parameters
and then the return type. Its position is the number of elements passed, and stays behind the last
one when all are. So it tells exactly how many are left, and which is the last, whatever calls were
put to it before and also where some of them faulted.
-/

namespace MethodLinkage

namespace SignatureCursor

variable {cursor after : SignatureCursor} {own : PlacedType} {rest : List PlacedType}

namespace Call

/-- The reply of a list whose first element is the current one, and the list that is left. -/
def onList : Call → List PlacedType → Except Fault Reply × List PlacedType
  | .isExhausted, left => (.ok (.flag left.isEmpty), left)
  | .onReturn, left => (.ok (.flag (left.length = 1)), left)
  | .current, [] => (.error .signatureExhausted, [])
  | .current, own :: later => (.ok (.type own.type), own :: later)
  | .advance, [] => (.error .signatureExhausted, [])
  | .advance, _ :: later => (.ok .moved, later)
  | .next, [] => (.ok (.element none), [])
  | .next, own :: later => (.ok (.element (some own)), later)
  | .length, left => (.ok (.count left.length), left)
  | .rest, left => (.ok (.elements left), [])

def runOnList : List Call → List PlacedType → List (Except Fault Reply)
  | [], _ => []
  | call :: calls, left => (call.onList left).1 :: runOnList calls (call.onList left).2

/-- How many elements a call passes, if there are that many. -/
def stride (signature : Signature) : Call → Nat
  | .advance | .next => 1
  | .rest => signature.elements.length
  | .isExhausted | .onReturn | .current | .length => 0

def strides (signature : Signature) (calls : List Call) : Nat :=
  calls.foldr (fun call later => call.stride signature + later) 0

theorem strides_cons (signature : Signature) (call : Call) (calls : List Call) :
    strides signature (call :: calls) = call.stride signature + strides signature calls := rfl

theorem onList_left {signature : Signature} (h : rest.length ≤ signature.elements.length)
    (call : Call) : (call.onList rest).2 = rest.drop (call.stride signature) := by
  cases call with
  | isExhausted | onReturn | length => rfl
  | current | advance | next => cases rest <;> rfl
  | rest => exact (List.drop_eq_nil_of_le h).symm

theorem runOnList_next (count : Nat) (rest : List PlacedType) :
    runOnList (List.replicate count .next) rest =
      (rest.take count).map (fun own => .ok (.element (some own))) ++
        List.replicate (count - rest.length) (.ok (.element none)) := by
  induction count generalizing rest with
  | zero => simp [runOnList]
  | succ count ih =>
    rw [List.replicate_succ, runOnList]
    cases rest with
    | nil => simpa [onList, List.replicate_succ] using ih []
    | cons own rest => simpa [onList] using ih rest

end Call

def afterAll (cursor : SignatureCursor) (calls : List Call) : SignatureCursor :=
  calls.foldl (fun cursor call => (cursor.call call).2) cursor

theorem afterAll_cons (cursor : SignatureCursor) (call : Call) (calls : List Call) :
    cursor.afterAll (call :: calls) = (cursor.call call).2.afterAll calls := rfl

theorem length_elements (signature : Signature) :
    signature.elements.length = signature.parameters.length + 1 := by
  simp [Signature.elements]

theorem length_eq (cursor : SignatureCursor) : cursor.length = cursor.remaining.length := by
  rw [remaining, List.length_drop, length_elements, length]

theorem isExhausted_eq (cursor : SignatureCursor) :
    cursor.isExhausted = cursor.remaining.isEmpty := by
  cases h : cursor.remaining with
  | nil => exact isExhausted_of_nil h
  | cons own rest => exact not_isExhausted_of_cons h

theorem onReturn_eq (cursor : SignatureCursor) :
    cursor.onReturn = decide (cursor.remaining.length = 1) := by
  rw [← length_eq, onReturn, length]
  apply decide_eq_decide.mpr
  omega

theorem next_of_nil (h : cursor.remaining = []) : cursor.next = none := by
  rw [next, current_of_nil h]

theorem next_of_cons (h : cursor.remaining = own :: rest) :
    ∃ after, cursor.next = some (own, after) ∧ after.remaining = rest := by
  obtain ⟨after, hadvance, hrest⟩ := advance_of_cons h
  refine ⟨after, ?_, hrest⟩
  rw [next, current_of_cons h, hadvance, onReturn_of_cons h]

theorem take_eq (count : Nat) (cursor : SignatureCursor) :
    (take count cursor).1 = cursor.remaining.take count ∧
      (take count cursor).2.remaining = cursor.remaining.drop count := by
  induction count generalizing cursor with
  | zero => exact ⟨rfl, rfl⟩
  | succ count ih =>
    rw [take]
    cases h : cursor.remaining with
    | nil =>
      rw [next_of_nil h]
      exact ⟨rfl, h⟩
    | cons own rest =>
      obtain ⟨after, hnext, hrest⟩ := next_of_cons h
      obtain ⟨htaken, hleft⟩ := ih after
      rw [hrest] at htaken hleft
      rw [hnext]
      exact ⟨congrArg (own :: ·) htaken, hleft⟩

theorem call_eq_onList (cursor : SignatureCursor) (call : Call) :
    (cursor.call call).1 = (call.onList cursor.remaining).1 ∧
      (cursor.call call).2.remaining = (call.onList cursor.remaining).2 := by
  cases call with
  | isExhausted =>
    refine ⟨?_, rfl⟩
    rw [SignatureCursor.call, isExhausted_eq]
    rfl
  | onReturn =>
    refine ⟨?_, rfl⟩
    rw [SignatureCursor.call, onReturn_eq]
    rfl
  | length =>
    refine ⟨?_, rfl⟩
    rw [SignatureCursor.call, length_eq]
    rfl
  | current =>
    rw [SignatureCursor.call]
    cases h : cursor.remaining with
    | nil =>
      rw [current_of_nil h]
      exact ⟨rfl, rfl⟩
    | cons own rest =>
      rw [current_of_cons h]
      exact ⟨rfl, rfl⟩
  | advance =>
    rw [SignatureCursor.call]
    cases h : cursor.remaining with
    | nil =>
      rw [advance_of_nil h]
      exact ⟨rfl, h⟩
    | cons own rest =>
      obtain ⟨after, hadvance, hrest⟩ := advance_of_cons h
      rw [hadvance]
      exact ⟨rfl, hrest⟩
  | next =>
    rw [SignatureCursor.call]
    cases h : cursor.remaining with
    | nil =>
      rw [next_of_nil h]
      exact ⟨rfl, h⟩
    | cons own rest =>
      obtain ⟨after, hnext, hrest⟩ := next_of_cons h
      rw [hnext]
      exact ⟨rfl, hrest⟩
  | rest =>
    obtain ⟨htaken, hleft⟩ := take_eq cursor.length cursor
    rw [length_eq, List.take_length] at htaken
    rw [length_eq, List.drop_length] at hleft
    rw [SignatureCursor.call, SignatureCursor.rest, length_eq]
    exact ⟨congrArg (Except.ok ∘ Reply.elements) htaken, hleft⟩

theorem run_cons (cursor : SignatureCursor) (call : Call) (calls : List Call) :
    cursor.run (call :: calls) = (cursor.call call).1 :: (cursor.call call).2.run calls := rfl

theorem run_eq_runOnList (cursor : SignatureCursor) (calls : List Call) :
    cursor.run calls = Call.runOnList calls cursor.remaining := by
  induction calls generalizing cursor with
  | nil => rfl
  | cons call calls ih =>
    obtain ⟨hreply, hleft⟩ := cursor.call_eq_onList call
    rw [run_cons, Call.runOnList, ih, hreply, hleft]

/-- A cursor stands on an element of its signature or right behind the last one. -/
structure IsWithin (signature : Signature) (cursor : SignatureCursor) : Prop where
  signature_eq : cursor.signature = signature
  position_le : cursor.position ≤ signature.parameters.length + 1

variable {signature : Signature}

theorem IsWithin.advance (h : IsWithin signature cursor) (hadvance : cursor.advance = .ok after) :
    IsWithin signature after := by
  rw [SignatureCursor.advance] at hadvance
  split at hadvance
  · cases hadvance
  · next hexhausted =>
    cases hadvance
    refine ⟨h.signature_eq, ?_⟩
    rw [isExhausted, h.signature_eq] at hexhausted
    have hle := Nat.le_of_not_lt fun hlt => hexhausted (decide_eq_true hlt)
    exact Nat.succ_le_succ hle

theorem IsWithin.next (h : IsWithin signature cursor) (hnext : cursor.next = some (own, after)) :
    IsWithin signature after := by
  rw [SignatureCursor.next] at hnext
  split at hnext
  · next hadvance =>
    cases hnext
    exact h.advance hadvance
  · cases hnext

theorem IsWithin.take (count : Nat) (h : IsWithin signature cursor) :
    IsWithin signature (take count cursor).2 := by
  induction count generalizing cursor with
  | zero => exact h
  | succ count ih =>
    rw [SignatureCursor.take]
    split
    · exact h
    · next hnext => exact ih (h.next hnext)

theorem IsWithin.call (h : IsWithin signature cursor) (call : Call) :
    IsWithin signature (cursor.call call).2 := by
  cases call with
  | isExhausted | onReturn | current | length => exact h
  | advance =>
    rw [SignatureCursor.call]
    split
    · next hadvance => exact h.advance hadvance
    · exact h
  | next =>
    rw [SignatureCursor.call]
    split
    · next hnext => exact h.next hnext
    · exact h
  | rest => exact h.take cursor.length

theorem IsWithin.afterAll (h : IsWithin signature cursor) (calls : List Call) :
    IsWithin signature (cursor.afterAll calls) := by
  induction calls generalizing cursor with
  | nil => exact h
  | cons call calls ih => exact ih (h.call call)

theorem IsWithin.remaining_afterAll (h : IsWithin signature cursor) (calls : List Call) :
    (cursor.afterAll calls).remaining = cursor.remaining.drop (Call.strides signature calls) := by
  induction calls generalizing cursor with
  | nil => rfl
  | cons call calls ih =>
    have hle : cursor.remaining.length ≤ signature.elements.length := by
      rw [remaining, List.length_drop, h.signature_eq]
      exact Nat.sub_le _ _
    rw [afterAll_cons, ih (h.call call), (cursor.call_eq_onList call).2, Call.onList_left hle,
      List.drop_drop, Call.strides_cons]

theorem exists_fault_iff (cursor : SignatureCursor) (call : Call) :
    (∃ fault, (cursor.call call).1 = .error fault) ↔
      cursor.remaining = [] ∧ (call = .current ∨ call = .advance) := by
  rw [(cursor.call_eq_onList call).1]
  cases call with
  | isExhausted | onReturn | length | rest => simp [Call.onList]
  | current | advance | next => cases cursor.remaining <;> simp [Call.onList]

theorem call_of_fault {call : Call} {fault : Fault} (h : (cursor.call call).1 = .error fault) :
    cursor.call call = (.error .signatureExhausted, cursor) := by
  obtain ⟨hnone, rfl | rfl⟩ := (cursor.exists_fault_iff call).mp ⟨fault, h⟩
  · rw [SignatureCursor.call, current_of_nil hnone]
    rfl
  · rw [SignatureCursor.call, advance_of_nil hnone]

/-- After any calls, a cursor over a signature is the list of the elements that they have not
passed. It replies as that list does; how many are left, and whether the last one is current, can be
read off it; what is left comes out one by one, each once, and then nothing for ever; and calls
fault only where nothing is left, and change nothing then. -/
theorem cursor_is_what_is_left (signature : Signature) (calls : List Call) :
    let cursor := (start signature).afterAll calls
    let left := signature.elements.drop (Call.strides signature calls)
    (start signature).run calls = Call.runOnList calls signature.elements ∧
    cursor.signature = signature ∧ cursor.position ≤ signature.parameters.length + 1 ∧
    cursor.length = left.length ∧ (cursor.isExhausted = true ↔ left = []) ∧
    (cursor.onReturn = true ↔ left.length = 1) ∧
    (∀ count, cursor.run (List.replicate count .next) =
      (left.take count).map (fun own => .ok (.element (some own))) ++
        List.replicate (count - left.length) (.ok (.element none))) ∧
    (∀ call, (∃ fault, (cursor.call call).1 = .error fault) ↔
      left = [] ∧ (call = .current ∨ call = .advance)) ∧
    ∀ call fault, (cursor.call call).1 = .error fault →
      cursor.call call = (.error .signatureExhausted, cursor) := by
  intro cursor left
  have hstart : IsWithin signature (start signature) := ⟨rfl, Nat.zero_le _⟩
  have hwithin : IsWithin signature cursor := hstart.afterAll calls
  have hleft : cursor.remaining = left := hstart.remaining_afterAll calls
  have hdrained (count : Nat) := (cursor.run_eq_runOnList (List.replicate count .next)).trans
    (Call.runOnList_next count cursor.remaining)
  rw [← hleft]
  refine ⟨run_eq_runOnList .., hwithin.signature_eq, hwithin.position_le, cursor.length_eq, ?_, ?_,
    hdrained, cursor.exists_fault_iff, fun call fault => call_of_fault⟩
  · rw [isExhausted_eq, List.isEmpty_iff]
  · rw [onReturn_eq, decide_eq_true_iff]

example :
    (start ⟨⟨[⟨0, .primitive .int, FieldType.zero_le_dimensions⟩], .void⟩, ⟨9⟩, [⟨6⟩], ⟨8⟩, 1⟩).run
    [.length, .advance, .onReturn, .next, .advance, .length, .next] =
      [.ok (.count 2), .ok .moved, .ok (.flag true), .ok (.element (some ⟨⟨8⟩, true⟩)),
        .error .signatureExhausted, .ok (.count 0), .ok (.element none)] := rfl

end SignatureCursor
end MethodLinkage
