import Emplace.Text.Lines

/-!
Bytes as text. What is no UTF-8 is shown by the replacement character, one for each longest start of
a character that breaks off and one for each byte that can start none.
-/
namespace Emplace.Text

def replacement : Char := '\ufffd'

/-- A character that has begun: its number so far, how many bytes are missing, and what the next one
may be. -/
structure Begun where
  code : Nat
  missing : Nat
  least : Nat
  most : Nat

/-- What a byte at the start of a character gives: characters, or one that has begun. -/
def lead (b : Nat) : List Char × Option Begun :=
  if b < 0x80 then ([Char.ofNat b], none)
  else if b < 0xc2 then ([replacement], none)
  else if b < 0xe0 then ([], some ⟨b - 0xc0, 1, 0x80, 0xbf⟩)
  else if b < 0xf0 then
    ([], some ⟨b - 0xe0, 2, if b = 0xe0 then 0xa0 else 0x80, if b = 0xed then 0x9f else 0xbf⟩)
  else if b < 0xf5 then
    ([], some ⟨b - 0xf0, 3, if b = 0xf0 then 0x90 else 0x80, if b = 0xf4 then 0x8f else 0xbf⟩)
  else ([replacement], none)

def continued (begun : Begun) (b : Nat) : List Char × Option Begun :=
  if begun.least ≤ b ∧ b ≤ begun.most then
    let code := begun.code * 64 + (b - 0x80)
    if begun.missing ≤ 1 then ([Char.ofNat code], none)
    else ([], some ⟨code, begun.missing - 1, 0x80, 0xbf⟩)
  else
    let (chars, next) := lead b
    (replacement :: chars, next)

def decodedFrom : Option Begun → List UInt8 → List Char
  | none, [] => []
  | some _, [] => [replacement]
  | none, b :: rest =>
    let (chars, next) := lead b.toNat
    chars ++ decodedFrom next rest
  | some begun, b :: rest =>
    let (chars, next) := continued begun b.toNat
    chars ++ decodedFrom next rest

def decoded (bytes : List UInt8) : List Char := decodedFrom none bytes

def readable (bytes : List UInt8) : String := String.ofList (unified (decoded bytes))

end Emplace.Text
