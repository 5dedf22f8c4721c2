import MethodLinkage.Bytes

/-!
# Checksums

The 32-bit cyclic redundancy check: the remainder of the bytes, read as a
polynomial with the lowest bit first, modulo the one whose coefficients are
`0xedb88320`. The remainder starts with all bits set and is complemented at the end.
-/

namespace MethodLinkage

namespace Checksum

def shift (remainder : UInt32) : UInt32 :=
  if remainder &&& 1 = 1 then (remainder >>> 1) ^^^ 0xedb88320 else remainder >>> 1

def step (remainder : UInt32) (byte : UInt8) : UInt32 :=
  Nat.repeat shift 8 (remainder ^^^ byte.toUInt32)

def crc32 (bytes : Bytes) : UInt32 := ~~~(bytes.foldl step 0xffffffff)

end Checksum

end MethodLinkage
