import MethodLinkage.Text.CodePage
import MethodLinkage.Classes.Archive.ExtraField

/-!
# Archive directories

A directory has one header per entry, each right behind the one before. Data may
stand in front of an archive; all places that the archive names are then shifted by
the length of that data.
-/

namespace MethodLinkage

structure ArchiveDirectory where
  start : Nat
  count : Nat
  shift : Nat

namespace ArchiveDirectory

open ByteReader

def headerMark : Bytes := [0x50, 0x4b, 0x01, 0x02]
def headerSize : Nat := 46

/-- A bit of the flags marks texts as UTF-8; other texts are of the code page. -/
def decodeText (flags : Nat) (bytes : Bytes) : Text :=
  if flags.testBit 11 then Utf8.decode bytes else CodePage.decode bytes

/-- Reads a header; the extra fields count before the place is shifted. -/
def readHeader (shift : Nat) : ByteReader ArchiveEntry := do
  mark headerMark
  skip 4
  let flags ← number 2
  let method ← number 2
  skip 8
  let packedSize ← number 4
  let size ← number 4
  let nameLength ← number 2
  let extraLength ← number 2
  let commentLength ← number 2
  skip 8
  let place ← number 4
  let name ← take nameLength
  let extra ← take extraLength
  let comment ← take commentLength
  let entry ← ExtraField.readAll extra
    { name := decodeText flags name, rawName := name, comment := decodeText flags comment,
      isEncrypted := flags.testBit 0, isEnciphered := false, method := method,
      size := size, packedSize := packedSize, place := place }
  guard (entry.method = ArchiveEntry.enciphered → entry.isEnciphered)
  guard (entry.place + shift < UInt64.size)
  pure { entry with place := entry.place + shift }

def readHeaders (shift : Nat) : Nat → ByteReader (List ArchiveEntry)
  | 0 => pure []
  | count + 1 => do
    let entry ← readHeader shift
    let entries ← readHeaders shift count
    pure (entry :: entries)

/-- One bad header makes the whole directory unreadable. -/
def entries? (content : Bytes) (directory : ArchiveDirectory) : Option (List ArchiveEntry) :=
  (readHeaders directory.shift directory.count).run' (content.drop directory.start)

end ArchiveDirectory

end MethodLinkage
