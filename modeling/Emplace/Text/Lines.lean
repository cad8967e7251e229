import Emplace.Text.Pieces

/-!
Lines of a text. A line ends with a line feed, a carriage return, or the two together; reading a
text makes all three a line feed.
-/
namespace Emplace.Text

def unified : List Char → List Char
  | [] => []
  | '\r' :: '\n' :: rest => '\n' :: unified rest
  | '\r' :: rest => '\n' :: unified rest
  | c :: rest => c :: unified rest

/-- The lines of a text; what follows the last line end is a line if it is not empty. -/
def lines (text : List Char) : List (List Char) :=
  let all := pieces '\n' text
  if all.getLast? = some [] then all.dropLast else all

def withoutFinalFeed (text : List Char) : List Char :=
  if text.getLast? = some '\n' then text.dropLast else text

def IsOneLine (text : List Char) : Prop :=
  '\n' ∉ text ∧ '\r' ∉ text

end Emplace.Text
