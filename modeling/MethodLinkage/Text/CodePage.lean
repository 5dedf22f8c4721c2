import MethodLinkage.Bytes
import MethodLinkage.Text

/-!
# Code page 437

One byte spells one character: ASCII below 128, letters, frames and signs above.
-/

namespace MethodLinkage

namespace CodePage

/-- The characters of the bytes 128 to 255. -/
def upper : List Char :=
  ("ÇüéâäàåçêëèïîìÄÅÉæÆôöòûùÿÖÜ¢£¥₧ƒ" ++
    "áíóúñÑªº¿⌐¬½¼¡«»░▒▓│┤╡╢╖╕╣║╗╝╜╛┐└┴┬├─┼╞╟╚╔╩╦╠═╬╧╨╤╥╙╘╒╓╫╪┘┌█▄▌▐▀" ++
    "αßΓπΣσµτΦΘΩδ∞φε∩≡±≥≤⌠⌡÷≈°∙·√ⁿ²■\u00a0").toList

def character (byte : UInt8) : Char :=
  if byte < 128 then Char.ofNat byte.toNat else upper.getD (byte.toNat - 128) ' '

def decode (bytes : Bytes) : Text := bytes.map character

end CodePage

end MethodLinkage
