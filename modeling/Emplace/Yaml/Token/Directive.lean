import Emplace.Number.Whole
import Emplace.Yaml.Comment
import Emplace.Yaml.Token.Tag

/-!
Reading directives: lines that begin with a percent sign and stand before a document. One gives the
version of the format, one gives a handle for tags, and others are passed over.
-/
namespace Emplace.Yaml.Directive

def number (cursor : Cursor) : Except Refusal (Nat × Cursor) :=
  match cursor.takeWhile fun c => (Text.digitValue? c).isSome with
  | ([], _) => .error (.problem (.badToken "expected a digit in a directive"))
  | (digits, cursor) =>
    match Number.readInteger 10 (digits.map .char) with
    | .error fault => .error (.fault fault)
    | .ok value => .ok (value.toNat, cursor)

def version (cursor : Cursor) : Except Refusal (Token × Cursor) :=
  match number cursor.skipSpaces with
  | .error refusal => .error refusal
  | .ok (major, cursor) =>
    if cursor.peek ≠ some '.' then
      .error (.problem (.badToken "expected a digit or '.' in a directive"))
    else match number cursor.next with
      | .error refusal => .error refusal
      | .ok (_, cursor) =>
        if cursor.atGap then .ok (.version major, cursor)
        else .error (.problem (.badToken "expected a digit or ' ' in a directive"))

def tagHandle (cursor : Cursor) : Except Refusal (Token × Cursor) :=
  match TagText.readHandle cursor.skipSpaces with
  | .error refusal => .error refusal
  | .ok (handle, cursor) =>
    if !cursor.atSpace then .error (.problem (.badToken "expected ' ' in a directive"))
    else match TagText.readName cursor.skipSpaces with
      | .error refusal => .error refusal
      | .ok (start, cursor) =>
        if cursor.atGap then .ok (.tagHandle handle start, cursor)
        else .error (.problem (.badToken "expected ' ' after a directive"))

def contents (name : List Char) (cursor : Cursor) : Except Refusal (Token × Cursor) :=
  if name = "YAML".toList then version cursor
  else if name = "TAG".toList then tagHandle cursor
  else .ok (.otherDirective, cursor.skipWhile fun c => !isBreak c)

def read (cursor : Cursor) : Except Refusal (Token × Cursor) :=
  match cursor.next.takeWhile isWordChar with
  | ([], _) => .error (.problem (.badToken "expected a letter or a digit in a directive"))
  | (name, cursor) =>
    if !cursor.atGap then
      .error (.problem (.badToken "expected a letter or a digit in a directive"))
    else match contents name cursor with
      | .error refusal => .error refusal
      | .ok (token, cursor) =>
        match cursor.endLine with
        | .error refusal => .error refusal
        | .ok cursor => .ok (token, cursor)

end Emplace.Yaml.Directive
