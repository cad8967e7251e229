import Emplace.Yaml.Cursor
import Emplace.Yaml.Token

/-!
Reading tags: a full name between angle brackets, or a name behind a handle. A name may hold
characters as percent escapes of their bytes.
-/
namespace Emplace.Yaml

def isWordChar (c : Char) : Bool :=
  c.isAlphanum || c = '-' || c = '_'

namespace TagText

def nameMarks : List Char := "-;/?:@&=+$,_.!~*'()[]%".toList

def isNameChar (c : Char) : Bool :=
  c.isAlphanum || nameMarks.contains c

def escapedBytes : Nat → List UInt8 → Cursor → Except Refusal (List UInt8 × Cursor)
  | 0, bytes, cursor => .ok (bytes, cursor)
  | fuel + 1, bytes, cursor =>
    match cursor.rest with
    | '%' :: a :: b :: _ =>
      match Text.number? 16 [a, b] with
      | some code => escapedBytes fuel (bytes ++ [UInt8.ofNat code]) (cursor.skip 3)
      | none => .error (.problem (.badToken "expected an escape sequence of 2 hexadecimal numbers"))
    | '%' :: _ =>
      .error (.problem (.badToken "expected an escape sequence of 2 hexadecimal numbers"))
    | _ => .ok (bytes, cursor)

def escaped (cursor : Cursor) : Except Refusal (List Char × Cursor) :=
  match escapedBytes cursor.steps [] cursor with
  | .error refusal => .error refusal
  | .ok (bytes, cursor) =>
    match String.fromUTF8? (ByteArray.mk bytes.toArray) with
    | some text => .ok (text.toList, cursor)
    | none => .error (.problem (.badToken "expected an escape sequence of a character"))

def nameFrom : Nat → List Char → Cursor → Except Refusal (List Char × Cursor)
  | 0, name, cursor => .ok (name, cursor)
  | fuel + 1, name, cursor =>
    match cursor.peek with
    | none => .ok (name, cursor)
    | some c =>
      if c = '%' then
        match escaped cursor with
        | .error refusal => .error refusal
        | .ok (chars, cursor) => nameFrom fuel (name ++ chars) cursor
      else if isNameChar c then nameFrom fuel (name ++ [c]) cursor.next
      else .ok (name, cursor)

def readName (cursor : Cursor) : Except Refusal (String × Cursor) :=
  match nameFrom cursor.steps [] cursor with
  | .error refusal => .error refusal
  | .ok (name, after) =>
    if after.index = cursor.index then .error (.problem (.badToken "expected the name of a tag"))
    else .ok (String.ofList name, after)

/-- The handle at a place: an exclamation mark, or a word between two of them. -/
def readHandle (cursor : Cursor) : Except Refusal (String × Cursor) :=
  match cursor.rest with
  | '!' :: rest =>
    if rest.head? = some ' ' then .ok ("!", cursor.next)
    else
      let word := rest.takeWhile isWordChar
      if cursor.peekAt (word.length + 1) = some '!' then
        .ok (String.ofList ('!' :: word ++ ['!']), cursor.skip (word.length + 2))
      else .error (.problem (.badToken "expected '!' at the end of the handle of a tag"))
  | _ => .error (.problem (.badToken "expected '!' at the handle of a tag"))

/-- Whether the tag at a place has a handle of its own: an exclamation mark besides the first. -/
def hasHandle (cursor : Cursor) : Bool :=
  ((cursor.rest.drop 1).takeWhile fun c => !(c = ' ' || isBreak c)).contains '!'

def readParts (cursor : Cursor) : Except Refusal (TagText × Cursor) :=
  if cursor.peekAt 1 = some '<' then
    match readName (cursor.skip 2) with
    | .error refusal => .error refusal
    | .ok (name, cursor) =>
      if cursor.peek = some '>' then .ok (⟨none, name⟩, cursor.next)
      else .error (.problem (.badToken "expected '>' at the end of a tag"))
  else if cursor.separatedAt 1 then .ok (⟨none, "!"⟩, cursor.next)
  else
    let start := if hasHandle cursor then readHandle cursor else .ok ("!", cursor.next)
    match start with
    | .error refusal => .error refusal
    | .ok (handle, cursor) =>
      match readName cursor with
      | .error refusal => .error refusal
      | .ok (name, cursor) => .ok (⟨some handle, name⟩, cursor)

def read (cursor : Cursor) : Except Refusal (TagText × Cursor) :=
  match readParts cursor with
  | .error refusal => .error refusal
  | .ok (tag, cursor) =>
    if cursor.atGap then .ok (tag, cursor)
    else .error (.problem (.badToken "expected ' ' after a tag"))

end TagText
end Emplace.Yaml
