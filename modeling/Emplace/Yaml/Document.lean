import Emplace.Yaml.Assembly
import Emplace.Yaml.Node.Reading

/-!
The value of a text of settings.
-/
namespace Emplace.Yaml

def isAllowed (c : Char) : Bool :=
  let n := c.toNat
  n = 0x09 || n = 0x0a || n = 0x0d || (0x20 ≤ n && n ≤ 0x7e) || n = 0x85
    || (0xa0 ≤ n && n ≤ 0xfffd) || 0x10000 ≤ n

/-- The value that a text stands for; a text without a document stands for nothing. -/
def read (text : String) : Except Refusal Value :=
  match text.toList.find? fun c => !isAllowed c with
  | some c => .error (.problem (.forbiddenCharacter c.toNat))
  | none =>
    match documentOf text.toList with
    | .error refusal => .error refusal
    | .ok none => .ok .null
    | .ok (some document) => document.value

end Emplace.Yaml
