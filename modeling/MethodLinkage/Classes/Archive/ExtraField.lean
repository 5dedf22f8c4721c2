import MethodLinkage.Text.Utf8
import MethodLinkage.Classes.Archive.Checksum
import MethodLinkage.Classes.Archive.Entry

/-!
# Extra fields

A header ends with fields that each have a kind, a length and a content. Some of
them change what the header says of its entry; they count in their order. A field
of a known kind has to have the form of its kind. The fields end where one is cut
off; what was changed up to there stays changed.
-/

namespace MethodLinkage

inductive FieldFault where
  | cutOff
  | malformed

structure FieldState where
  entry : ArchiveEntry
  rest : Bytes

abbrev FieldReader := EStateM FieldFault FieldState

namespace FieldReader

def ofBytes {α : Type} (read : ByteReader α) : FieldReader α := fun state =>
  match read state.rest with
  | none => .error .cutOff state
  | some (found, rest) => .ok found { state with rest := rest }

instance : MonadLift ByteReader FieldReader := ⟨ofBytes⟩

def entry : FieldReader ArchiveEntry := return (← get).entry

def change (f : ArchiveEntry → ArchiveEntry) : FieldReader Unit :=
  modify fun state => { state with entry := f state.entry }

def require (condition : Prop) [Decidable condition] : FieldReader Unit :=
  unless condition do throw .malformed

end FieldReader

namespace ExtraField

open ByteReader FieldReader

def tooLarge : Nat := 0xffffffff

/-- Numbers of eight bytes for those that do not fit into four. A field of 24 bytes
or more has all three of them; each counts as soon as it is read. -/
def wideNumbers (length : Nat) : FieldReader Unit := do
  let entry ← entry
  let isPresent (narrow : Nat) : Bool := 24 ≤ length || narrow == tooLarge
  if isPresent entry.size then
    let size ← number 8
    change ({ · with size := size })
  if isPresent entry.packedSize then
    let packedSize ← number 8
    change ({ · with packedSize := packedSize })
  if isPresent entry.place then
    let place ← number 8
    change ({ · with place := place })
  let taken := 8 * [entry.size, entry.packedSize, entry.place].countP isPresent
  require (taken ≤ length)
  skip (length - taken)

def longTimes (length : Nat) : FieldReader Unit := do
  require (length = 32)
  skip 4
  require ((← number 2) = 1)
  require ((← number 2) = 24)
  skip 24

/-- Times of four bytes each. A bit for each says whether it is there; a field of
five bytes has one time, whatever the bits say. -/
def shortTimes (length : Nat) : FieldReader Unit := do
  let flags ← number 1
  require (length = 5 ∨ length = 1 + 4 * (List.range 8).countP flags.testBit)
  skip (length - 1)

def cipher (length : Nat) : FieldReader Unit := do
  require (length = 7)
  let version ← number 2
  let vendor ← number 2
  let strength ← number 1
  let method ← number 2
  require ((version = 1 ∨ version = 2) ∧ vendor = 0x4541 ∧ 1 ≤ strength ∧ strength ≤ 3)
  change ({ · with method := method, isEnciphered := true })

/-- UTF-8 for a text that the header has in another form; the checksum of that form
has to be right. -/
def unicode (length : Nat) (header : Bytes) : FieldReader (Bytes × Text) := do
  skip 1
  let checksum ← number 4
  require (5 ≤ length)
  let content ← take (length - 5)
  require (checksum = (Checksum.crc32 header).toNat)
  match Utf8.decode? content with
  | none => throw .malformed
  | some text => pure (content, text)

def unicodeName (length : Nat) : FieldReader Unit := do
  let (content, text) ← unicode length (← entry).rawName
  change ({ · with name := text, rawName := content })

def unicodeComment (length : Nat) : FieldReader Unit := do
  let (_, text) ← unicode length (Utf8.encode (← entry).comment)
  change ({ · with comment := text })

def read : FieldReader Unit := do
  let kind ← number 2
  let length ← number 2
  match kind with
  | 0x0001 => wideNumbers length
  | 0x000a => longTimes length
  | 0x5455 => shortTimes length
  | 0x6375 => unicodeComment length
  | 0x7075 => unicodeName length
  | 0x9901 => cipher length
  | _ => skip length

def readUpTo : Nat → FieldState → Option ArchiveEntry
  | 0, state => some state.entry
  | count + 1, state =>
    match read state with
    | .ok _ state => readUpTo count state
    | .error .cutOff state => some state.entry
    | .error .malformed _ => none

def readAll (bytes : Bytes) (entry : ArchiveEntry) : Option ArchiveEntry :=
  readUpTo bytes.length ⟨entry, bytes⟩

end ExtraField

end MethodLinkage
