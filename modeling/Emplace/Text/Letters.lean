import Emplace.Text.Quoted

/-!
Texts that may hold halves of surrogate pairs. A half stands for no character, so such a text has no
bytes in UTF-8; between quotes a half is written as an escape.
-/
namespace Emplace.Text

/-- A place in a text: a character, or half of a surrogate pair by its number. -/
inductive Letter where
  | char (c : Char)
  | half (code : Nat)
  deriving DecidableEq, Repr

namespace Letter

def shape : Letter → Char
  | char c => c
  | half _ => '\ufffd'

def chars? : List Letter → Option (List Char)
  | [] => some []
  | char c :: rest => (chars? rest).map (c :: ·)
  | half _ :: _ => none

def quoted (quote : Char) : Letter → List Char
  | char c => quotedChar quote c
  | half code => '\\' :: 'u' :: hex 4 code

end Letter

def quotedLetters (letters : List Letter) : String :=
  let quote := quoteFor (letters.map Letter.shape)
  String.ofList (quote :: letters.flatMap (Letter.quoted quote) ++ [quote])

/-- A text as it is written: characters, or letters with halves among them. -/
inductive Written where
  | text (s : String)
  | broken (letters : List Letter)
  deriving DecidableEq, Repr

def Written.ofLetters (letters : List Letter) : Written :=
  match Letter.chars? letters with
  | some chars => .text (String.ofList chars)
  | none => .broken letters

def Written.letters : Written → List Letter
  | .text s => s.toList.map .char
  | .broken letters => letters

def Written.quoted : Written → String
  | .text s => Text.quoted s
  | .broken letters => quotedLetters letters

end Emplace.Text
