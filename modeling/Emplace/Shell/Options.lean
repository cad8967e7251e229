import Emplace.Text.Pieces

/-!
The options of tools: letters behind a dash, words behind two, anywhere among the operands. A word
may be cut short where that leaves no doubt.
-/
namespace Emplace.Shell

inductive Takes where
  | nothing
  | value
  | perhaps
  deriving DecidableEq, Repr

/-- An option by its letter and its word; either may be missing. -/
structure Flag where
  letter : Option Char
  word : String
  takes : Takes
  deriving DecidableEq, Repr

def Flag.plain (letters : String) : List Flag :=
  letters.toList.map fun c => ⟨some c, String.ofList [c], .nothing⟩

/-- What a command line says to a tool: its options in order, by their words, and its operands. -/
structure Options where
  given : List (String × String)
  operands : List String

namespace Options

def has (options : Options) (word : String) : Bool := options.given.any fun row => row.1 = word

def hasAny (options : Options) (words : List String) : Bool := words.any options.has

def value? (options : Options) (word : String) : Option String :=
  (options.given.reverse).lookup word

def last? (options : Options) (words : List String) : Option String :=
  (options.given.reverse.find? fun row => words.contains row.1).map Prod.fst

def letters (flags : List Flag) :
    List Char → List String → Except String (List (String × String) × List String)
  | [], rest => .ok ([], rest)
  | c :: more, rest =>
    match flags.find? fun flag => flag.letter = some c with
    | none => .error ("invalid option -- '" ++ String.ofList [c] ++ "'")
    | some flag =>
      match flag.takes with
      | .nothing =>
        (letters flags more rest).map fun (given, rest) => ((flag.word, "") :: given, rest)
      | .perhaps => .ok ([(flag.word, String.ofList more)], rest)
      | .value =>
        if !more.isEmpty then .ok ([(flag.word, String.ofList more)], rest)
        else match rest with
          | value :: rest => .ok ([(flag.word, value)], rest)
          | [] => .error ("option requires an argument -- '" ++ String.ofList [c] ++ "'")

def meant (flags : List Flag) (word : String) : List Flag :=
  match flags.filter fun flag => flag.word = word ∧ 1 < word.length with
  | [] => flags.filter fun flag => Text.startsWith flag.word word ∧ 1 < flag.word.length
  | exact => exact

def word (flags : List Flag) (text : String) (rest : List String) :
    Except String (List (String × String) × List String) :=
  let name := (Text.split '=' text).headD ""
  let value? := if text = name then none else some (Text.dropStart text (name ++ "="))
  match meant flags name with
  | [] => .error ("unrecognized option '--" ++ text ++ "'")
  | [flag] =>
    match flag.takes, value?, rest with
    | .nothing, some _, _ => .error ("option '--" ++ flag.word ++ "' doesn't allow an argument")
    | .value, none, value :: rest => .ok ([(flag.word, value)], rest)
    | .value, none, [] => .error ("option '--" ++ flag.word ++ "' requires an argument")
    | _, value?, rest => .ok ([(flag.word, value?.getD "")], rest)
  | several => .error ("option '--" ++ text ++ "' is ambiguous; possibilities:"
      ++ String.join (several.map fun flag => " '--" ++ flag.word ++ "'"))

/-- The options and operands among arguments; where `first` is set, no option stands behind an
operand. -/
def read (flags : List Flag) (first : Bool) : Nat → List String → Except String Options
  | 0, _ => .ok ⟨[], []⟩
  | _, [] => .ok ⟨[], []⟩
  | fuel + 1, argument :: rest =>
    let found := match argument.toList with
      | '-' :: '-' :: text => some (word flags (String.ofList text) rest)
      | '-' :: c :: more => some (letters flags (c :: more) rest)
      | _ => none
    match argument, found with
    | "--", _ => .ok ⟨[], rest⟩
    | _, some (.error what) => .error what
    | _, some (.ok (given, rest)) =>
      (read flags first fuel rest).map fun options =>
        ⟨given ++ options.given, options.operands⟩
    | _, none =>
      if first then .ok ⟨[], argument :: rest⟩
      else (read flags first fuel rest).map fun options =>
        ⟨options.given, argument :: options.operands⟩

end Options
end Emplace.Shell
