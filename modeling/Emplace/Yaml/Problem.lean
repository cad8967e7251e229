import Emplace.Fault

/-!
What is wrong with a document of settings.
-/
namespace Emplace.Yaml

inductive Problem where
  | forbiddenCharacter (code : Nat)
  | badToken (what : String)
  | badStructure (what : String)
  | unknownAlias (name : String)
  | repeatedAnchor (name : String)
  | severalDocuments
  | unknownTag (tag : String)
  | badValue (what : String)
  | wideBytes (what : String)
  | badBytes (what : String)
  deriving DecidableEq, Repr

def Problem.message : Problem → String
  | .forbiddenCharacter code =>
    "unacceptable character #x" ++ String.ofList (Text.hex 4 code)
      ++ ": special characters are not allowed"
  | .badToken what => what
  | .badStructure what => what
  | .unknownAlias name => "found undefined alias " ++ Text.quoted name
  | .repeatedAnchor name => "found duplicate anchor " ++ Text.quoted name
  | .severalDocuments => "expected a single document in the stream"
  | .unknownTag tag => "could not determine a constructor for the tag " ++ Text.quoted tag
  | .badValue what => what
  | .wideBytes what => "failed to convert base64 data into ascii: " ++ what
  | .badBytes what => "failed to decode base64 data: " ++ what

/-- Why a text gives no value: it is no document, or a scalar of it is outside what its tag can
hold. -/
inductive Refusal where
  | problem (p : Problem)
  | fault (f : Fault)
  deriving DecidableEq, Repr

end Emplace.Yaml
