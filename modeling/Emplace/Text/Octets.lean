import Emplace.Text.Decoding
import Emplace.Text.Letters

/-!
Bytes as text with one character for each byte, and back. A text as bytes keeps everything that a
file or a stream can hold, also where it is no UTF-8.
-/
namespace Emplace.Text

def octets (bytes : List UInt8) : String :=
  String.ofList (bytes.map fun byte => Char.ofNat byte.toNat)

def octetBytes (text : String) : List UInt8 :=
  text.toList.map fun c => UInt8.ofNat c.toNat

def asOctets (text : String) : String := octets text.toUTF8.toList

def ofOctets (text : String) : String := String.ofList (decoded (octetBytes text))

/-- The bytes of a name. A half of a surrogate pair stands in it for a byte that is part of no
character; other halves stand for nothing. -/
def nameBytes? : List Letter → Option (List UInt8)
  | [] => some []
  | .char c :: rest => (nameBytes? rest).map ((String.singleton c).toUTF8.toList ++ ·)
  | .half code :: rest =>
    if 0xdc80 ≤ code ∧ code ≤ 0xdcff then
      (nameBytes? rest).map (UInt8.ofNat (code - 0xdc00) :: ·)
    else none

end Emplace.Text
