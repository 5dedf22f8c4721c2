import MethodLinkage.Classes.Archive.Directory

/-!
# Wide end records

Where numbers are too large for an end record, a wide end record stands in front of it,
and between the two a locator that tells where the wide one is. Archives on several
disks are not read.
-/

namespace MethodLinkage

structure WideLocator where
  place : Nat
  directoryDisk : Nat
  offset : Nat
  diskCount : Nat

structure WideEndRecord where
  place : Nat
  size : Nat
  disk : Nat
  directoryDisk : Nat
  countHere : Nat
  count : Nat
  offset : Nat

open ByteReader

namespace WideLocator

def mark : Bytes := [0x50, 0x4b, 0x06, 0x07]
def size : Nat := 20

def before? (content : Bytes) (last : Nat) : Option WideLocator := do
  guard (size ≤ last)
  let read : ByteReader WideLocator := do
    ByteReader.mark mark
    let directoryDisk ← number 4
    let offset ← number 8
    let diskCount ← number 4
    pure ⟨last - size, directoryDisk, offset, diskCount⟩
  read.run' (content.drop (last - size))

end WideLocator

namespace WideEndRecord

def mark : Bytes := [0x50, 0x4b, 0x06, 0x06]

/-- A wide end record counts its size from behind the size itself. -/
def uncounted : Nat := 12
def leastSize : Nat := 44

def read (place : Nat) : ByteReader WideEndRecord := do
  skip 4
  let size ← number 8
  skip 4
  let disk ← number 4
  let directoryDisk ← number 4
  let countHere ← number 8
  let count ← number 8
  skip 8
  let offset ← number 8
  pure ⟨place, size, disk, directoryDisk, countHere, count, offset⟩

def Fits (locator : WideLocator) (record : WideEndRecord) : Prop :=
  leastSize ≤ record.size ∧ record.size + uncounted = locator.place - record.place ∧
    record.directoryDisk = locator.directoryDisk ∧
    record.count * ArchiveDirectory.headerSize + record.offset ≤ record.place

instance (locator : WideLocator) (record : WideEndRecord) : Decidable (Fits locator record) :=
  inferInstanceAs (Decidable (_ ∧ _))

/-- The first wide end record that fits; else the cause of the last one that does not. -/
def firstFitting (content : Bytes) (locator : WideLocator) (error : ArchiveError) :
    List Nat → Except ArchiveError WideEndRecord
  | [] => .error error
  | place :: later =>
    match (read place).run' (content.drop place) with
    | none => firstFitting content locator .truncated later
    | some record =>
      if record.Fits locator then .ok record
      else firstFitting content locator .malformed later

def locate (content : Bytes) (locator : WideLocator) : Except ArchiveError WideEndRecord :=
  if locator.place ≤ locator.offset ∨ 1 < locator.diskCount then .error .malformed
  else
    firstFitting content locator .malformed
      (content.placesBetween locator.offset locator.place mark)

def directory? (locator : WideLocator) (record : WideEndRecord) : Option ArchiveDirectory := do
  guard (record.countHere ≤ record.count ∧ record.disk = record.directoryDisk)
  let shift := record.place - locator.offset
  pure ⟨record.offset + shift, record.count, shift⟩

end WideEndRecord

end MethodLinkage
