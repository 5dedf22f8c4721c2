import MethodLinkage.Classes.Archive.WideEndRecord

/-!
# End records

An archive ends with a record that tells where its directory is. The shift of places
is read off the first header found at or after the place that is named for it.
-/

namespace MethodLinkage

structure EndRecord where
  place : Nat
  disk : Nat
  directoryDisk : Nat
  countHere : Nat
  count : Nat
  offset : Nat
  commentLength : Nat

open ByteReader

namespace EndRecord

def mark : Bytes := [0x50, 0x4b, 0x05, 0x06]
def size : Nat := 22

def fields (place : Nat) : ByteReader EndRecord := do
  skip 4
  let disk ← number 2
  let directoryDisk ← number 2
  let countHere ← number 2
  let count ← number 2
  skip 4
  let offset ← number 4
  let commentLength ← number 2
  pure ⟨place, disk, directoryDisk, countHere, count, offset, commentLength⟩

def read (fileSize place : Nat) (bytes : Bytes) : Except ArchiveError EndRecord :=
  match (fields place).run' bytes with
  | none => .error .truncated
  | some record =>
    if place + size + record.commentLength ≤ fileSize then .ok record else .error .malformed

def mayBeWide (record : EndRecord) : Bool := record.count = 0xffff || record.offset = 0xffffffff

def directory? (shift : Nat) (record : EndRecord) : Option ArchiveDirectory := do
  guard (record.disk = record.directoryDisk)
  pure ⟨record.offset + shift, record.countHere, shift⟩

/-- The shift where no wide end record stands in front. Without entries it is what lies
between the place of the directory and the record. -/
def shift (content : Bytes) (record : EndRecord) : Except ArchiveError Nat :=
  if record.count = 0 then .ok (record.place - record.offset)
  else if record.place ≤ record.offset then .error .malformed
  else
    match content.placesBetween record.offset record.place ArchiveDirectory.headerMark with
    | [] => .error .malformed
    | first :: _ => .ok (first - record.offset)

/-- Where the directory is. Good records name none where their disk is not that of the
directory, or holds more of its headers than there are. -/
def locate (content : Bytes) (record : EndRecord) :
    Except ArchiveError (Option ArchiveDirectory) :=
  let locator? := if record.mayBeWide then WideLocator.before? content record.place else none
  match locator? with
  | none => (record.shift content).map record.directory?
  | some locator => (WideEndRecord.locate content locator).map (·.directory? locator)

end EndRecord

end MethodLinkage
