import Emplace.Yaml.Cursor
import Emplace.Yaml.Problem

/-!
Ends of lines on which nothing but a comment may stand.
-/
namespace Emplace.Yaml

def Cursor.endLine (cursor : Cursor) : Except Refusal Cursor :=
  let cursor := cursor.skipSpaces.skipComment
  if cursor.atLineEnd then .ok cursor.takeBreak.2
  else .error (.problem (.badToken "expected a comment or a line break"))

end Emplace.Yaml
