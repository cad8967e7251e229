import Emplace.Text.Digits
import Emplace.Text.Quoted

/-!
What a call on files or on a value can fail with, apart from the errors of the library itself. A
`SystemError` is the operating system's answer; a `Fault` is that or one of the failures that no
stage turns into an error of its own. What is missing may be an entry of a mapping or a list, a part
that a value of some kind does not have, or a character beyond the end of a text.
-/
namespace Emplace

inductive Cause where
  | noEntry
  | execFormat
  | blocked
  | permission
  | exists
  | notDirectory
  | isDirectory
  | nameTooLong
  | tooManyLinks
  deriving DecidableEq, Repr

namespace Cause

def number : Cause → Nat
  | .noEntry => 2
  | .execFormat => 8
  | .blocked => 11
  | .permission => 13
  | .exists => 17
  | .notDirectory => 20
  | .isDirectory => 21
  | .nameTooLong => 36
  | .tooManyLinks => 40

def text : Cause → String
  | .noEntry => "No such file or directory"
  | .execFormat => "Exec format error"
  | .blocked => "Resource temporarily unavailable"
  | .permission => "Permission denied"
  | .exists => "File exists"
  | .notDirectory => "Not a directory"
  | .isDirectory => "Is a directory"
  | .nameTooLong => "File name too long"
  | .tooManyLinks => "Too many levels of symbolic links"

end Cause

structure SystemError where
  cause : Cause
  name : String
  deriving DecidableEq, Repr

/-- The wording of a refused call on a name, which is given between its quotes. -/
def refusal (cause : Cause) (name : String) : String :=
  "[Errno " ++ Text.natural cause.number ++ "] " ++ cause.text ++ ": " ++ name

def SystemError.text (e : SystemError) : String := refusal e.cause (Text.quoted e.name)

/-- A failure outside the library's own errors. -/
inductive Fault where
  | system (e : SystemError)
  | systemBytes (cause : Cause) (name : List UInt8)
  | noFreshName
  | linkToRemove
  | nullByte
  | linkLoop (path : String)
  | notText
  | wrongKind
  /-- A value is of the right kind but out of the operation's range. -/
  | badValue (message : String)
  | missingEntry
  | missingPart
  | missingCharacter
  | tooLarge
  | tooDeep
  | brokenText
  deriving DecidableEq, Repr

namespace Fault

/-- The wording of a fault; faults about a value's kind have none. -/
def message : Fault → String
  | .system e => e.text
  | .systemBytes cause name => refusal cause (Text.quotedBytes name)
  | .linkToRemove => "Cannot call rmtree on a symbolic link"
  | .noFreshName => "[Errno 17] No usable temporary directory name found"
  | .nullByte => "embedded null byte"
  | .linkLoop path => "Symlink loop from " ++ Text.quoted path
  | .badValue message => message
  | .notText => ""
  | .wrongKind => ""
  | .missingEntry => ""
  | .missingPart => ""
  | .missingCharacter => ""
  | .tooLarge => ""
  | .tooDeep => ""
  | .brokenText => ""

end Fault
end Emplace
