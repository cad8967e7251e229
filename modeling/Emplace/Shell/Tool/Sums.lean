import Emplace.Shell.Arithmetic
import Emplace.Shell.Regex
import Emplace.Shell.Tool

/-!
The tool that works out an expression whose signs are words of their own.
-/
namespace Emplace.Shell.Tool.Sums

abbrev Result := Except String (String × List String)

def isNothing (value : String) : Bool :=
  let digits := match value.toList with
    | '-' :: rest => rest
    | rest => rest
  value = "" || (!digits.isEmpty && digits.all (· = '0'))

def number? (value : String) : Option Int :=
  let (negative, digits) := match value.toList with
    | '-' :: rest => (true, rest)
    | rest => (false, rest)
  if digits.isEmpty ∨ !digits.all Char.isDigit then none
  else (Text.number? 10 digits).map fun n => if negative then -(n : Int) else n

def truth (b : Bool) : String := if b then "1" else "0"

def compared (sign a b : String) : String :=
  let order := match number? a, number? b with
    | some a, some b => compare a b
    | _, _ => compare a b
  truth (match sign with
    | "<" => order = .lt
    | "<=" => order ≠ .gt
    | "=" => order = .eq
    | "==" => order = .eq
    | "!=" => order ≠ .eq
    | ">=" => order ≠ .lt
    | _ => order = .gt)

/-- What an expression stands for at the front of a text: its first group, or how long it is. -/
def fitted (text pattern : String) : String :=
  let regex := Regex.ofText false pattern
  let chars := text.toList
  let grouped := Text.startsWith (String.ofList (pattern.toList.filter fun c => c = '(')) "("
    && 1 < (pattern.splitOn "\\(").length
  match Regex.longest (Regex.ends false (Regex.depth chars) regex ⟨[], chars, []⟩) with
  | none => if grouped then "" else "0"
  | some spot =>
    if grouped then String.ofList ((spot.groups.lookup 1).getD [])
    else Text.natural (chars.length - spot.after.length)

def result (sign a b : String) : Except String String :=
  let counted (join : Int → Int → Except String Int) : Except String String :=
    match number? a, number? b with
    | some a, some b => (join a b).map Text.integer
    | _, _ => .error "non-integer argument"
  match sign with
  | "|" => .ok (if !isNothing a then a else if isNothing b then "0" else b)
  | "&" => .ok (if isNothing a ∨ isNothing b then "0" else a)
  | "+" => counted fun a b => .ok (a + b)
  | "-" => counted fun a b => .ok (a - b)
  | "*" => counted fun a b => .ok (a * b)
  | "/" => counted fun a b => if b = 0 then .error "division by zero" else .ok (a.tdiv b)
  | "%" => counted fun a b => if b = 0 then .error "division by zero" else .ok (a.tmod b)
  | ":" => .ok (fitted a b)
  | sign => .ok (compared sign a b)

def rank? (sign : String) : Option Nat :=
  [("|", 1), ("&", 2), ("<", 3), ("<=", 3), ("=", 3), ("==", 3), ("!=", 3), (">=", 3), (">", 3),
    ("+", 4), ("-", 4), ("*", 5), ("/", 5), ("%", 5), (":", 6)].lookup sign

def missing (last : String) : Except String (String × List String) :=
  .error ("syntax error: missing argument after " ++ curly last)

mutual

def primary : Nat → String → List String → Result
  | 0, last, _ => missing last
  | _, last, [] => missing last
  | fuel + 1, _, word :: rest =>
    match word with
    | "(" =>
      match expression fuel 1 "(" rest with
      | .error what => .error what
      | .ok (value, ")" :: rest) => .ok (value, rest)
      | .ok (_, []) => .error ("syntax error: expecting ')' after "
          ++ curly (rest.getLastD "("))
      | .ok (_, other :: _) => .error ("syntax error: expecting ')' instead of " ++ curly other)
    | ")" => .error "syntax error: unexpected ')'"
    | "+" =>
      match rest with
      | [] => missing "+"
      | value :: rest => .ok (value, rest)
    | "length" => (primary fuel word rest).map fun (value, rest) =>
        (Text.natural value.length, rest)
    | "match" =>
      match primary fuel word rest with
      | .error what => .error what
      | .ok (text, rest) => (primary fuel text rest).map fun (pattern, rest) =>
          (fitted text pattern, rest)
    | "index" =>
      match primary fuel word rest with
      | .error what => .error what
      | .ok (text, rest) => (primary fuel text rest).map fun (set, rest) =>
          (Text.natural (match text.toList.findIdx? set.toList.contains with
            | some i => i + 1
            | none => 0), rest)
    | "substr" =>
      match primary fuel word rest with
      | .error what => .error what
      | .ok (text, rest) =>
        match primary fuel text rest with
        | .error what => .error what
        | .ok (start, rest) => (primary fuel start rest).map fun (count, rest) =>
            (match number? start, number? count with
              | some start, some count =>
                if start ≤ 0 ∨ count ≤ 0 then ""
                else String.ofList ((text.toList.drop (start - 1).toNat).take count.toNat)
              | _, _ => "", rest)
    | word => .ok (word, rest)

def expression : Nat → Nat → String → List String → Result
  | 0, _, last, _ => missing last
  | fuel + 1, rank, last, words =>
    match primary fuel last words with
    | .error what => .error what
    | .ok (first, rest) => joined fuel rank first rest

def joined : Nat → Nat → String → List String → Result
  | 0, _, first, words => .ok (first, words)
  | fuel + 1, rank, first, words =>
    match words with
    | [] => .ok (first, [])
    | sign :: rest =>
      match rank? sign with
      | none => .ok (first, words)
      | some bond =>
        if bond < rank then .ok (first, words)
        else match expression fuel (bond + 1) sign rest with
          | .error what => .error what
          | .ok (second, rest) =>
            match result sign first second with
            | .error what => .error what
            | .ok value => joined fuel rank value rest

end

def expr : Tool := fun state name arguments =>
  let words := if arguments.head? = some "--" then arguments.tail else arguments
  let failed (what : String) : State := (complain state name what).withStatus 2
  if words.isEmpty then misused state name "missing operand" 2
  else match expression (3 * words.length + 3) 1 "" words with
    | .error what => failed what
    | .ok (_, extra :: _) => failed ("syntax error: unexpected argument " ++ curly extra)
    | .ok (value, []) =>
      (state.print (value ++ "\n")).withStatus (if isNothing value then 1 else 0)

end Emplace.Shell.Tool.Sums
