/-!
# Bytes

Binary records hold numbers with the lowest byte first. A reader takes bytes from
the front of what is left and fails where they run out.
-/

namespace MethodLinkage

abbrev Bytes := List UInt8

namespace Bytes

def toNat (bytes : Bytes) : Nat := bytes.foldr (fun byte rest => byte.toNat + 256 * rest) 0

/-- Adds the places at which a mark stands to those found, last first, each with the
bytes from there on; `place` is that of the first byte. -/
def addPlacesOf (mark : Bytes) (found : List (Nat × Bytes)) (place : Nat) :
    Bytes → List (Nat × Bytes)
  | [] => found
  | byte :: rest =>
    let bytes := byte :: rest
    addPlacesOf mark (if mark.isPrefixOf bytes then (place, bytes) :: found else found)
      (place + 1) rest

def placesOf (mark bytes : Bytes) : List (Nat × Bytes) := addPlacesOf mark [] 0 bytes

def placesBetween (bytes : Bytes) (start stop : Nat) (mark : Bytes) : List Nat :=
  (addPlacesOf mark [] start ((bytes.drop start).take (stop - start))).reverse.map (·.1)

end Bytes

abbrev ByteReader := StateT Bytes Option

namespace ByteReader

def take (count : Nat) : ByteReader Bytes := fun bytes =>
  let front := bytes.take count
  if front.length = count then some (front, bytes.drop count) else none

def skip (count : Nat) : ByteReader Unit := do
  let _ ← take count

def number (width : Nat) : ByteReader Nat := Bytes.toNat <$> take width

def mark (expected : Bytes) : ByteReader Unit := do
  guard ((← take expected.length) = expected)

end ByteReader

end MethodLinkage
