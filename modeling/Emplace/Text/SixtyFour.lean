import Emplace.Text.Digits
import Emplace.Text.Letters

/-!
Bytes written with sixty-four characters, four for three bytes. Other characters are passed over; an
equals sign where a group may end early ends the text.
-/
namespace Emplace.Text.SixtyFour

def digit? (c : Char) : Option Nat :=
  if 'A' ≤ c ∧ c ≤ 'Z' then some (c.toNat - 65)
  else if 'a' ≤ c ∧ c ≤ 'z' then some (c.toNat - 71)
  else if '0' ≤ c ∧ c ≤ '9' then some (c.toNat + 4)
  else if c = '+' then some 62
  else if c = '/' then some 63
  else none

/-- How far a group has come: the characters of it so far, the bits not yet part of a byte, and the
equals signs since the last character. -/
structure Group where
  length : Nat
  left : Nat
  pads : Nat

def unfinished (length bytes : Nat) : String :=
  if length = 1 then
    "Invalid base64-encoded string: number of data characters ("
      ++ natural (bytes / 3 * 4 + 1) ++ ") cannot be 1 more than a multiple of 4"
  else "Incorrect padding"

/-- The bytes of the rest of a text; those before it are given last first. -/
def decodeFrom (bytes : List UInt8) (group : Group) : List Char → Except String (List UInt8)
  | [] =>
    if group.length = 0 then .ok bytes.reverse
    else .error (unfinished group.length bytes.length)
  | c :: rest =>
    if c = '=' then
      if 2 ≤ group.length then
        if 4 ≤ group.length + group.pads + 1 then .ok bytes.reverse
        else decodeFrom bytes { group with pads := group.pads + 1 } rest
      else decodeFrom bytes group rest
    else match digit? c with
      | none => decodeFrom bytes group rest
      | some d =>
        match group.length with
        | 0 => decodeFrom bytes ⟨1, d, 0⟩ rest
        | 1 => decodeFrom (UInt8.ofNat (group.left * 4 + d / 16) :: bytes) ⟨2, d % 16, 0⟩ rest
        | 2 => decodeFrom (UInt8.ofNat (group.left * 16 + d / 4) :: bytes) ⟨3, d % 4, 0⟩ rest
        | _ => decodeFrom (UInt8.ofNat (group.left * 64 + d) :: bytes) ⟨0, 0, 0⟩ rest

def decode (text : List Char) : Except String (List UInt8) :=
  decodeFrom [] ⟨0, 0, 0⟩ text

def isBasic : Letter → Bool
  | .char c => c.toNat < 128
  | .half _ => false

def escapeOf (letter : Letter) : List Char :=
  let code := match letter with
    | .char c => c.toNat
    | .half code => code
  if code < 0x100 then '\\' :: 'x' :: hex 2 code
  else if code < 0x10000 then '\\' :: 'u' :: hex 4 code
  else '\\' :: 'U' :: hex 8 code

/-- What is wrong with a text that holds other letters than the basic characters, if it does. -/
def wideRun? (text : List Letter) : Option String :=
  match text.dropWhile isBasic with
  | [] => none
  | letter :: rest =>
    let start := (text.takeWhile isBasic).length
    let more := (rest.takeWhile fun letter => !isBasic letter).length
    let what :=
      if more = 0 then
        "character '" ++ String.ofList (escapeOf letter) ++ "' in position " ++ natural start
      else "characters in position " ++ natural start ++ "-" ++ natural (start + more)
    some ("'ascii' codec can't encode " ++ what ++ ": ordinal not in range(128)")

end Emplace.Text.SixtyFour
