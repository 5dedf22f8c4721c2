import MethodLinkage.Signature

/-!
# Cursors over signatures

A cursor visits the parameters of a signature and then its return type, each
once and forward only. It is a position: the number of elements visited.
-/

namespace MethodLinkage

structure SignatureCursor where
  signature : Signature
  position : Nat

namespace SignatureCursor

def start (signature : Signature) : SignatureCursor := ⟨signature, 0⟩

def isExhausted (cursor : SignatureCursor) : Bool :=
  cursor.signature.parameters.length < cursor.position

def onReturn (cursor : SignatureCursor) : Bool :=
  cursor.position = cursor.signature.parameters.length

def current (cursor : SignatureCursor) : Except Fault TypeIndex :=
  if cursor.isExhausted then .error .signatureExhausted
  else if cursor.onReturn then .ok cursor.signature.result
  else cursor.signature.parameter cursor.position

def advance (cursor : SignatureCursor) : Except Fault SignatureCursor :=
  if cursor.isExhausted then .error .signatureExhausted
  else .ok { cursor with position := cursor.position + 1 }

theorem not_isExhausted_of_advance {cursor after : SignatureCursor} (h : cursor.advance = .ok after) :
    cursor.isExhausted = false ∧ after = { cursor with position := cursor.position + 1 } := by
  rw [advance] at h
  split at h
  · cases h
  · next hleft => exact ⟨Bool.eq_false_iff.mpr hleft, (Except.ok.inj h).symm⟩

def next (cursor : SignatureCursor) : Option (PlacedType × SignatureCursor) :=
  match cursor.current, cursor.advance with
  | .ok id, .ok after => some (⟨id, cursor.onReturn⟩, after)
  | _, _ => none

def length (cursor : SignatureCursor) : Nat :=
  cursor.signature.parameters.length + 1 - cursor.position

theorem length_of_advance {cursor after : SignatureCursor} (h : cursor.advance = .ok after) :
    after.length < cursor.length := by
  obtain ⟨hleft, rfl⟩ := not_isExhausted_of_advance h
  have hle := of_decide_eq_false hleft
  simp only [length]
  omega

def take : Nat → SignatureCursor → List PlacedType × SignatureCursor
  | 0, cursor => ([], cursor)
  | count + 1, cursor =>
    match cursor.next with
    | none => ([], cursor)
    | some (element, after) =>
      let (elements, last) := take count after
      (element :: elements, last)

def rest (cursor : SignatureCursor) : List PlacedType × SignatureCursor :=
  take cursor.length cursor

inductive Call where
  | isExhausted | onReturn | current | advance | next | length | rest
  deriving DecidableEq

inductive Reply where
  | flag (value : Bool)
  | type (id : TypeIndex)
  | moved
  | element (element : Option PlacedType)
  | count (count : Nat)
  | elements (elements : List PlacedType)
  deriving DecidableEq

/-- A call that faults leaves the cursor where it was. -/
def call (cursor : SignatureCursor) : Call → Except Fault Reply × SignatureCursor
  | .isExhausted => (.ok (.flag cursor.isExhausted), cursor)
  | .onReturn => (.ok (.flag cursor.onReturn), cursor)
  | .current => (cursor.current.map .type, cursor)
  | .advance =>
    match cursor.advance with
    | .ok after => (.ok .moved, after)
    | .error fault => (.error fault, cursor)
  | .next =>
    match cursor.next with
    | some (element, after) => (.ok (.element (some element)), after)
    | none => (.ok (.element none), cursor)
  | .length => (.ok (.count cursor.length), cursor)
  | .rest =>
    let (elements, after) := cursor.rest
    (.ok (.elements elements), after)

def run (cursor : SignatureCursor) : List Call → List (Except Fault Reply)
  | [] => []
  | first :: calls =>
    let (reply, after) := cursor.call first
    reply :: after.run calls

end SignatureCursor

namespace Signature

@[semireducible]
def findPlaceholder (cursor : SignatureCursor) (arena : Arena) : Except Fault Bool :=
  if cursor.isExhausted then .ok false
  else
    match cursor.current with
    | .error fault => .error fault
    | .ok id =>
      match arena.get? id with
      | none => .error (.unissuedType id)
      | some type =>
        if type.isLoaded = false then .ok true
        else
          match _advanced : cursor.advance with
          | .error fault => .error fault
          | .ok after => findPlaceholder after arena
  termination_by cursor.length
  decreasing_by exact SignatureCursor.length_of_advance _advanced

def hasPlaceholder (signature : Signature) (arena : Arena) : Except Fault Bool :=
  findPlaceholder (.start signature) arena

end Signature

end MethodLinkage
