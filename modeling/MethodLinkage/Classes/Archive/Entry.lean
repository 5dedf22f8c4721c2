import MethodLinkage.Bytes
import MethodLinkage.Text

/-!
# Archive entries

What a directory tells about an entry, and when the entry can be opened: it is not
encrypted, its data starts with a header of its own, and it is stored or deflated.
Data is not looked at beyond that header.
-/

namespace MethodLinkage

inductive ArchiveError where
  | truncated
  | unreachable
  | malformed
  | unsupported
  deriving DecidableEq

/-- An entry has a name, and the bytes the name was read from; `place` is where its data starts. -/
structure ArchiveEntry where
  name : Text
  rawName : Bytes
  comment : Text
  isEncrypted : Bool
  isEnciphered : Bool
  method : Nat
  size : Nat
  packedSize : Nat
  place : Nat

namespace ArchiveEntry

def dataMark : Bytes := [0x50, 0x4b, 0x03, 0x04]
def dataHeaderSize : Nat := 30

def stored : Nat := 0
def deflated : Nat := 8

def enciphered : Nat := 99

/-- The first cause counts that keeps the entry from being opened. -/
def openIn (content : Bytes) (entry : ArchiveEntry) : Except ArchiveError Unit :=
  let header := (content.drop entry.place).take dataHeaderSize
  if entry.isEncrypted then .error .unsupported
  else if UInt64.size / 2 ≤ entry.place then .error .unreachable
  else if header.length < dataHeaderSize then .error .truncated
  else if header.take 4 ≠ dataMark then .error .malformed
  else if entry.isEnciphered ∨ entry.method ≠ stored ∧ entry.method ≠ deflated then
    .error .unsupported
  else .ok ()

end ArchiveEntry

end MethodLinkage
