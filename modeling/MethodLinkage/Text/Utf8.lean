import MethodLinkage.Bytes
import MethodLinkage.Text

/-!
# UTF-8

Bytes that spell no character are read as U+FFFD. One such sign stands for the
longest stretch that could still have begun a character, so reading goes on at the
first byte that ruled the character out.
-/

namespace MethodLinkage

namespace Utf8

/-- A character whose last `owed + 1` bytes are missing; the next of them is in a range. -/
structure Begun where
  value : Nat
  owed : Nat
  low : UInt8
  high : UInt8

structure Progress where
  complete : Text
  begun : Option Begun

def replacement : Char := '\ufffd'

def first (complete : Text) (byte : UInt8) : Progress :=
  let lead (sign owed : Nat) (low high : UInt8) : Progress :=
    ⟨complete, some ⟨byte.toNat - sign, owed, low, high⟩⟩
  if byte < 0x80 then ⟨Char.ofNat byte.toNat :: complete, none⟩
  else if byte < 0xc2 then ⟨replacement :: complete, none⟩
  else if byte < 0xe0 then lead 0xc0 0 0x80 0xbf
  else if byte = 0xe0 then lead 0xe0 1 0xa0 0xbf
  else if byte = 0xed then lead 0xe0 1 0x80 0x9f
  else if byte < 0xf0 then lead 0xe0 1 0x80 0xbf
  else if byte = 0xf0 then lead 0xf0 2 0x90 0xbf
  else if byte < 0xf4 then lead 0xf0 2 0x80 0xbf
  else if byte = 0xf4 then lead 0xf0 2 0x80 0x8f
  else ⟨replacement :: complete, none⟩

/-- Reads a further byte of a character; one out of range begins the next character. -/
def further (complete : Text) (begun : Begun) (byte : UInt8) : Progress :=
  if begun.low ≤ byte ∧ byte ≤ begun.high then
    let value := begun.value * 64 + (byte.toNat - 0x80)
    match begun.owed with
    | 0 => ⟨Char.ofNat value :: complete, none⟩
    | owed + 1 => ⟨complete, some ⟨value, owed, 0x80, 0xbf⟩⟩
  else first (replacement :: complete) byte

def step (progress : Progress) (byte : UInt8) : Progress :=
  match progress.begun with
  | none => first progress.complete byte
  | some begun => further progress.complete begun byte

def Progress.text (progress : Progress) : Text :=
  match progress.begun with
  | none => progress.complete.reverse
  | some _ => (replacement :: progress.complete).reverse

def decode (bytes : Bytes) : Text := (bytes.foldl step ⟨[], none⟩).text

def decode? (bytes : Bytes) : Option Text :=
  (String.fromUTF8? ⟨bytes.toArray⟩).map String.toList

def encode (text : Text) : Bytes := (String.ofList text).toUTF8.data.toList

end Utf8

end MethodLinkage
