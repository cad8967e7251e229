import Emplace.Shell.Tool.Editing.Script
import Emplace.Shell.Tool.Streams

/-!
Reading scripts that edit lines. What is wrong with a script is told with the place where it shows.
-/
namespace Emplace.Shell.Tool.Editing

/-- A reading of a script; it fails with a complaint and with how much is left where it fails. -/
abbrev Reading (α : Type) := Except (String × Nat) (α × List Char)

/-- The text up to a sign that is not guarded; a guarded sign stands for itself. -/
def portion (sep : Char) : List Char → Option (List Char × List Char)
  | [] => none
  | '\n' :: _ => none
  | '\\' :: c :: rest =>
    (portion sep rest).map fun (text, rest) =>
      (if c = sep ∨ c = '\n' then c :: text else '\\' :: c :: text, rest)
  | c :: rest =>
    if c = sep then some ([], rest)
    else (portion sep rest).map fun (text, rest) => (c :: text, rest)

def controls : List (Char × Char) :=
  [('n', '\n'), ('t', '\t'), ('r', '\r'), ('f', '\x0c'), ('v', '\x0b'), ('a', '\x07')]

def unescaped : Bool → List Char → List Char
  | _, [] => []
  | false, '\\' :: c :: rest => '\\' :: c :: unescaped false rest
  | false, '[' :: '^' :: ']' :: rest => '[' :: '^' :: ']' :: unescaped true rest
  | false, '[' :: ']' :: rest => '[' :: ']' :: unescaped true rest
  | false, '[' :: rest => '[' :: unescaped true rest
  | true, '\\' :: c :: rest =>
    match controls.lookup c with
    | some control => control :: unescaped true rest
    | none => '\\' :: unescaped true (c :: rest)
  | true, '[' :: ':' :: rest => '[' :: ':' :: unescaped true rest
  | true, ':' :: ']' :: rest => ':' :: ']' :: unescaped true rest
  | true, ']' :: rest => ']' :: unescaped false rest
  | inside, c :: rest => c :: unescaped inside rest
  termination_by _ chars => chars.length

def regexOf (extended : Bool) (text : List Char) : Option Regex :=
  if text.isEmpty then none
  else some (Regex.ofText extended (String.ofList (unescaped false text)))

def parts : List Char → List Part
  | [] => []
  | '\\' :: c :: rest =>
    (match [('U', Turn.upper), ('L', .lower), ('u', .upperOnce), ('l', .lowerOnce),
        ('E', .none)].lookup c with
      | some turn => .turn turn
      | none =>
        if c.isDigit then .group (c.toNat - 48) else .char ((controls.lookup c).getD c))
      :: parts rest
  | '&' :: rest => .group 0 :: parts rest
  | c :: rest => .char c :: parts rest

def isBlank (c : Char) : Bool := c = ' ' || c = '\t'

def skip (chars : List Char) : List Char := chars.dropWhile isBlank

def number? (chars : List Char) : Option (Nat × List Char) :=
  let digits := chars.takeWhile Char.isDigit
  if digits.isEmpty then none
  else some ((Text.number? 10 digits).getD 0, chars.drop digits.length)

def address (extended : Bool) (chars : List Char) : Reading (Option Address) :=
  let expression (sep : Char) (rest : List Char) : Reading (Option Address) :=
    match portion sep rest with
    | none => .error ("unterminated address regex", 0)
    | some (text, rest) =>
      let fold := rest.head? = some 'I'
      let rest := if fold then rest.tail else rest
      match Regex.problem? extended (String.ofList (unescaped false text)) with
      | some problem => .error (problem, rest.length)
      | none => .ok (some (.holding (regexOf extended text) fold), rest)
  match chars with
  | '$' :: rest => .ok (some .last, rest)
  | '/' :: rest => expression '/' rest
  | '\\' :: sep :: rest => expression sep rest
  | chars =>
    match number? chars with
    | none => .ok (none, chars)
    | some (first, rest) =>
      match skip rest with
      | '~' :: more =>
        let (step, rest) := (number? (skip more)).getD (0, more)
        .ok (some (.every first step), rest)
      | _ => .ok (some (.line first), rest)

def stop (extended : Bool) (chars : List Char) : Reading Stop :=
  match skip chars with
  | '+' :: rest =>
    match number? rest with
    | some (n, rest) => .ok (.behind n, rest)
    | none => .error ("expected number", rest.length)
  | '~' :: rest =>
    match number? rest with
    | some (n, rest) => .ok (.multiple n, rest)
    | none => .error ("expected number", rest.length)
  | chars =>
    match address extended chars with
    | .error why => .error why
    | .ok (some address, rest) => .ok (.at address, rest)
    | .ok (none, rest) => .error ("unexpected \x60,'", rest.length)

def ending {α : Type} (value : α) (rest : List Char) : Reading α :=
  match skip rest with
  | [] => .ok (value, [])
  | ';' :: rest => .ok (value, rest)
  | '\n' :: rest => .ok (value, rest)
  | '\x7d' :: rest => .ok (value, '\x7d' :: rest)
  | '#' :: rest => .ok (value, '#' :: rest)
  | _ :: rest => .error ("extra characters after command", rest.length)

/-- A text up to the end of its line, where a guarded end does not count. -/
def textLine : List Char → List Char × List Char
  | [] => ([], [])
  | ['\\'] => ([], [])
  | '\\' :: c :: rest =>
    let (text, rest) := textLine rest
    ((if c = 't' then '\t' else c) :: text, rest)
  | '\n' :: rest => ([], rest)
  | c :: rest =>
    let (text, rest) := textLine rest
    (c :: text, rest)

def text (change : String → Change) (rest : List Char) : Reading Change :=
  let so (rest : List Char) : Reading Change :=
    let (text, rest) := textLine rest
    .ok (change (String.ofList text ++ "\n"), rest)
  match skip rest with
  | [] => .error ("expected \\ after \x60a', \x60c' or \x60i'", 0)
  | '\\' :: rest =>
    match skip rest with
    | '\n' :: rest => so rest
    | [] => .error ("expected \\ after \x60a', \x60c' or \x60i'", 0)
    | _ => so rest
  | rest => so rest

def label (rest : List Char) : String × List Char :=
  let rest := skip rest
  let name := rest.takeWhile fun c => !isBlank c && c ≠ ';' && c ≠ '\n'
  (String.ofList name, rest.drop name.length)

def fileName (change : String → Change) (rest : List Char) : Reading Change :=
  let name := (skip rest).takeWhile (· ≠ '\n')
  if name.isEmpty then .error ("missing filename in r/R/w/W commands", rest.length)
  else .ok (change (String.ofList name), ((skip rest).drop name.length).drop 1)

def flags : Nat → Substitution → List Char → Reading Substitution
  | 0, what, rest => .ok (what, rest)
  | fuel + 1, what, rest =>
    match rest with
    | 'g' :: rest => flags fuel { what with all := true } rest
    | 'p' :: rest => flags fuel { what with shows := true } rest
    | 'i' :: rest => flags fuel { what with fold := true } rest
    | 'I' :: rest => flags fuel { what with fold := true } rest
    | 'w' :: rest =>
      match fileName .write rest with
      | .ok (.write file, rest) => .ok ({ what with file := some file }, rest)
      | .ok (_, rest) => .ok (what, rest)
      | .error why => .error why
    | rest =>
      match number? rest with
      | some (0, rest) =>
        .error ("number option to \x60s' command may not be zero", rest.length)
      | some (n, rest) => flags fuel { what with nth := n } rest
      | none =>
        match ending what rest with
        | .ok found => .ok found
        | .error (_, left) => .error ("unknown option to \x60s'", left)

def change (extended : Bool) (chars : List Char) : Reading Change :=
  let plain (change : Change) (rest : List Char) : Reading Change := ending change rest
  let withLabel (change : String → Change) (rest : List Char) : Reading Change :=
    let (name, rest) := label rest
    ending (change name) rest
  match chars with
  | [] => .error ("missing command", 0)
  | '\x7b' :: rest => .ok (.opening, rest)
  | '\x7d' :: rest => ending .closing rest
  | ':' :: rest =>
    let (name, rest) := label rest
    if name = "" then .error ("\":\" lacks a label", rest.length) else ending (.label name) rest
  | 's' :: sep :: rest =>
    match (portion sep rest).bind fun (regex, rest) =>
        (portion sep rest).map fun (text, rest) => (regex, text, rest) with
    | none => .error ("unterminated \x60s' command", 0)
    | some (regex, text, rest) =>
      match flags (rest.length + 1)
          ⟨regexOf extended regex, false, parts text, false, 1, false, none⟩ rest with
      | .error why => .error why
      | .ok (what, rest) =>
        let least := (what.regex.map Regex.groups).getD 9
        let lost := what.parts.findSome? fun part => match part with
          | .group n => if least < n then some n else none
          | _ => none
        match Regex.problem? extended (String.ofList (unescaped false regex)), lost with
        | some problem, _ => .error (problem, rest.length)
        | none, some n =>
          .error ("invalid reference \\" ++ Text.natural n ++ " on \x60s' command's RHS",
            rest.length)
        | none, none => .ok (.substitute what, rest)
  | 'y' :: sep :: rest =>
    match (portion sep rest).bind fun (signs, rest) =>
        (portion sep rest).map fun (others, rest) => (signs, others, rest) with
    | none => .error ("unterminated \x60y' command", 0)
    | some (signs, others, rest) =>
      let signs := escapes (signs.length + 1) signs
      let others := escapes (others.length + 1) others
      if signs.length = others.length then ending (.map signs others) rest
      else .error ("strings for \x60y' command are different lengths", rest.length)
  | 'd' :: rest => plain .delete rest
  | 'D' :: rest => plain .deleteFront rest
  | 'p' :: rest => plain .print rest
  | 'P' :: rest => plain .printFront rest
  | 'n' :: rest => plain .next rest
  | 'N' :: rest => plain .nextToo rest
  | 'h' :: rest => plain .hold rest
  | 'H' :: rest => plain .holdToo rest
  | 'g' :: rest => plain .fetch rest
  | 'G' :: rest => plain .fetchToo rest
  | 'x' :: rest => plain .swap rest
  | 'z' :: rest => plain .clear rest
  | '=' :: rest => plain .number rest
  | 'l' :: rest => plain .show rest
  | 'q' :: rest =>
    let (status, rest) := (number? (skip rest)).getD (0, rest)
    ending (.quit status true) rest
  | 'Q' :: rest =>
    let (status, rest) := (number? (skip rest)).getD (0, rest)
    ending (.quit status false) rest
  | 'b' :: rest => withLabel .jump rest
  | 't' :: rest => withLabel .jumpIf rest
  | 'T' :: rest => withLabel .jumpUnless rest
  | 'a' :: rest => text .behind rest
  | 'i' :: rest => text .before rest
  | 'c' :: rest => text .instead rest
  | 'r' :: rest => fileName .read rest
  | 'w' :: rest => fileName .write rest
  | ['s'] => .error ("unterminated \x60s' command", 0)
  | ['y'] => .error ("unterminated \x60y' command", 0)
  | c :: rest =>
    if c = ';' ∨ c = '\n' then .error ("missing command", rest.length)
    else .error ("unknown command: \x60" ++ String.ofList [c] ++ "'", rest.length)

/-- The commands of a script behind so many open blocks, and how many are open at its end. -/
def commands (extended : Bool) :
    Nat → Nat → List Char → Except (String × Nat) (List Command × Nat)
  | 0, _, chars => .error ("missing command", chars.length)
  | fuel + 1, blocks, chars =>
    match chars.dropWhile fun c => isBlank c || c = '\n' || c = ';' with
    | [] => .ok ([], blocks)
    | '#' :: rest => commands extended fuel blocks (rest.dropWhile (· ≠ '\n'))
    | chars => do
      let (first, rest) ← address extended chars
      let (stop, rest) ← match first, skip rest with
        | some _, ',' :: rest => (stop extended rest).map fun (stop, rest) => (some stop, rest)
        | none, ',' :: rest => .error ("unexpected \x60,'", rest.length)
        | _, _ => .ok (none, rest)
      let (inverted, rest) := match skip rest with
        | '!' :: rest => (true, (skip rest).dropWhile fun c => c = '!' || isBlank c)
        | rest => (false, rest)
      let here := rest.drop 1
      let (change, rest) ← change extended rest
      let blocks ← match change, blocks with
        | .quit _ _, _ =>
          if stop.isSome then .error ("command only uses one address", here.length)
          else .ok blocks
        | .opening, blocks => .ok (blocks + 1)
        | .closing, 0 => .error ("unexpected \x60\x7d'", rest.length)
        | .closing, blocks + 1 => .ok blocks
        | _, blocks => .ok blocks
      let (others, blocks) ← commands extended fuel blocks rest
      .ok (⟨first, stop, inverted, change⟩ :: others, blocks)

end Emplace.Shell.Tool.Editing
