import Emplace.Number.Power
import Emplace.Shell.Tool.Streams

/-!
The tools that bring lines into order and look at neighbours.
-/
namespace Emplace.Shell.Tool

/-! ## Keys -/

structure Manner where
  numeric : Bool
  fold : Bool
  reversed : Bool
  skips : Bool
  /-- Whether only blanks, letters and digits count. -/
  plain : Bool
  deriving DecidableEq, Repr

namespace Manner

def none : Manner := ⟨false, false, false, false, false⟩

def ofLetters (letters : List Char) : Manner :=
  ⟨letters.contains 'n', letters.contains 'f', letters.contains 'r', letters.contains 'b',
    letters.contains 'd'⟩

end Manner

/-- A place in a line: a field, and a character in it; the end of the field where it is zero. -/
structure Place where
  field : Nat
  char : Nat

structure Key where
  first : Place
  last : Option Place
  manner : Manner

namespace Key

def isBlank (c : Char) : Bool := c = ' ' || c = '\t'

/-- A place at the front of a text, with the letters behind it. -/
def place? (least : Nat) (chars : List Char) : Option (Place × List Char × List Char) :=
  let number (chars : List Char) : Option (Nat × List Char) :=
    let digits := chars.takeWhile Char.isDigit
    (if digits.isEmpty then none else Text.number? 10 digits).map fun n =>
      (n, chars.drop digits.length)
  let withLetters (place : Place) (rest : List Char) : Place × List Char × List Char :=
    let letters := rest.takeWhile fun c => c ≠ ','
    (place, letters, rest.drop letters.length)
  match number chars with
  | some (field, '.' :: rest) =>
    (number rest).map fun (char, rest) => withLetters ⟨field, char⟩ rest
  | some (field, rest) => some (withLetters ⟨field, least⟩ rest)
  | none => none

/-- The key that a text asks for; without letters it is compared in the general manner. -/
def ofText? (general : Manner) (text : String) : Option Key := do
  let (first, letters, rest) ← place? 1 text.toList
  let (last, more) ← match rest with
    | ',' :: rest => (place? 0 rest).map fun (place, more, _) => (some place, more)
    | _ => some (none, [])
  let manner := Manner.ofLetters (letters ++ more)
  if first.field = 0 then none
  else some ⟨first, last, if manner = Manner.none then general else manner⟩

def behindFields (separator : Option Char) : Nat → List Char → List Char
  | 0, chars => chars
  | n + 1, chars =>
    match separator with
    | some c => behindFields separator n ((chars.dropWhile (· ≠ c)).drop 1)
    | none => behindFields separator n ((chars.dropWhile isBlank).dropWhile fun c => !isBlank c)

def fieldLength (separator : Option Char) (chars : List Char) : Nat :=
  match separator with
  | some c => (chars.takeWhile (· ≠ c)).length
  | none =>
    let gap := (chars.takeWhile isBlank).length
    gap + ((chars.drop gap).takeWhile fun c => !isBlank c).length

def part (separator : Option Char) (key : Key) (line : List Char) : List Char :=
  let skip (chars : List Char) : List Char :=
    if key.manner.skips then chars.dropWhile isBlank else chars
  let start := (skip (behindFields separator (key.first.field - 1) line)).drop (key.first.char - 1)
  match key.last with
  | none => start
  | some last =>
    let field := behindFields separator (last.field - 1) line
    let stop :=
      if last.char = 0 then field.drop (fieldLength separator field)
      else (skip field).drop last.char
    start.take (start.length - stop.length)

end Key

/-- The number at the front of a text, in parts of a unit that is small enough. -/
def frontNumber (chars : List Char) : Int :=
  let chars := chars.dropWhile Key.isBlank
  let (negative, chars) := match chars with
    | '-' :: rest => (true, rest)
    | rest => (false, rest)
  let digits := chars.takeWhile Char.isDigit
  let fraction := match chars.drop digits.length with
    | '.' :: rest => (rest.takeWhile Char.isDigit).take 18
    | _ => []
  let number (digits : List Char) : Nat := (Text.number? 10 digits).getD 0
  let n := number digits * Number.tenTo 18 + number fraction * Number.tenTo (18 - fraction.length)
  if negative then -n else n

def Manner.compare (manner : Manner) (a b : List Char) : Ordering :=
  let shaped (chars : List Char) : List Char :=
    let chars := if manner.skips then chars.dropWhile Key.isBlank else chars
    let chars := if manner.plain then chars.filter fun c => Key.isBlank c || c.isAlphanum
      else chars
    if manner.fold then chars.map Char.toUpper else chars
  let order :=
    if manner.numeric then compareOfLessAndEq (frontNumber a) (frontNumber b)
    else compareOfLessAndEq (String.ofList (shaped a)) (String.ofList (shaped b))
  if manner.reversed then order.swap else order

/-! ## Sorting -/

structure Ordered where
  separator : Option Char
  keys : List Key
  general : Manner
  unique : Bool
  stable : Bool

namespace Ordered

def byKeys (how : Ordered) (a b : String) : Ordering :=
  if how.keys.isEmpty then how.general.compare a.toList b.toList
  else how.keys.foldl (fun order key => match order with
    | .eq => key.manner.compare (key.part how.separator a.toList) (key.part how.separator b.toList)
    | order => order) .eq

/-- How one line stands to another, where need be by all that they hold. -/
def compare (how : Ordered) (a b : String) : Ordering :=
  match how.byKeys a b with
  | .eq =>
    if how.unique || how.stable then .eq
    else
      let order := compareOfLessAndEq a b
      if how.general.reversed then order.swap else order
  | order => order

def sort (how : Ordered) (all : List String) : List String :=
  let sorted := all.mergeSort fun a b => how.compare a b != .gt
  if !how.unique then sorted
  else (sorted.foldl (fun kept line => match kept with
    | last :: _ => if how.byKeys last line = .eq then kept else line :: kept
    | [] => [line]) []).reverse

def disorder? (how : Ordered) : Nat → List String → Option (Nat × String)
  | number, a :: b :: rest =>
    let order := how.compare a b
    if order = .gt ∨ (how.unique ∧ order = .eq) then some (number + 1, b)
    else disorder? how (number + 1) (b :: rest)
  | _, _ => none

/-- What options ask for; a key that cannot be read is given back. -/
def ofOptions (options : Options) : Except String Ordered :=
  let has := options.has
  let general : Manner := ⟨has "numeric-sort", has "ignore-case", has "reverse",
    has "ignore-leading-blanks", has "dictionary-order"⟩
  let texts := (options.given.filter fun row => row.1 = "key").map Prod.snd
  let separator := (options.value? "field-separator").map fun text =>
    if text = "\\0" then '\x00' else text.toList.headD '\x00'
  match texts.find? fun text => (Key.ofText? general text).isNone with
  | some text => .error text
  | none =>
    .ok ⟨separator, texts.filterMap (Key.ofText? general), general, has "unique", has "stable"⟩

end Ordered

def sort : Tool :=
  withOptions ([⟨some 'r', "reverse", .nothing⟩, ⟨some 'n', "numeric-sort", .nothing⟩,
    ⟨some 'u', "unique", .nothing⟩, ⟨some 'f', "ignore-case", .nothing⟩,
    ⟨some 's', "stable", .nothing⟩, ⟨some 'o', "output", .value⟩,
    ⟨some 'b', "ignore-leading-blanks", .nothing⟩, ⟨some 'd', "dictionary-order", .nothing⟩,
    ⟨some 't', "field-separator", .value⟩, ⟨some 'k', "key", .value⟩,
    ⟨some 'z', "zero-terminated", .nothing⟩, ⟨some 'm', "merge", .nothing⟩,
    ⟨some 'c', "check", .nothing⟩] ++ Flag.plain "C") false 2
    fun state name options =>
      let told (file : String) (cause : Cause) : String :=
        if cause = .isDirectory then "read failed: " ++ Tool.plain file ++ ": " ++ cause.text
        else "cannot read: " ++ Tool.plain file ++ ": " ++ cause.text
      let mark : UInt8 := if options.has "zero-terminated" then 0 else 10
      let linesOf (bytes : List UInt8) : List (List UInt8) :=
        let pieces := Text.pieces mark bytes
        if pieces.getLast? = some [] then pieces.dropLast else pieces
      let read (row : State × List String) (file : String) :=
        match content row.1 file with
        | (.ok bytes, state) => (state, row.2 ++ (linesOf bytes).map Text.octets)
        | (.error cause, state) =>
          ((complain state name (told file cause)).withStatus 2, row.2)
      match Ordered.ofOptions options with
      | .error text =>
        (complain state name ("invalid number at field start: invalid count at start of "
          ++ curly text)).withStatus 2
      | .ok how =>
        let (state, all) := (sources options).foldl read (state, [])
        let ending := String.ofList [Char.ofNat mark.toNat]
        let bytes (_ : Unit) : List UInt8 :=
          Text.octetBytes (String.join ((how.sort all).map (· ++ ending)))
        if state.status ≠ 0 then state
        else if options.hasAny ["check", "C"] then
          match how.disorder? 1 all with
          | none => state
          | some (number, line) =>
            if options.has "C" then state.withStatus 1
            else complain state name ((sources options).headD "-" ++ ":" ++ Text.natural number
              ++ ": disorder: " ++ line)
        else match options.value? "output" with
          | none => state.writeBytes 1 (bytes ())
          | some file =>
            match state.disk.writeBytes (path file) (ByteArray.mk (bytes ()).toArray) with
            | .ok disk => { state with disk }
            | .error fault => (complain state name fault.message).withStatus 2

/-! ## Neighbours -/

def runs (alike : List UInt8 → List UInt8 → Bool) :
    List (List UInt8) → List (Nat × List UInt8)
  | [] => []
  | line :: rest =>
    match runs alike rest with
    | (n, same) :: more =>
      if alike same line then (n + 1, line) :: more else (1, line) :: (n, same) :: more
    | [] => [(1, line)]

def lookedAt (options : Options) (line : List UInt8) : List UInt8 :=
  let number (word : String) : Nat :=
    ((options.value? word).bind fun n => Text.number? 10 n.toList).getD 0
  let chars := Key.behindFields none (number "skip-fields") (Text.octets line).toList
  let chars := chars.drop (number "skip-chars")
  let chars := if options.has "check-chars" then chars.take (number "check-chars") else chars
  Text.octetBytes (String.ofList
    (if options.has "ignore-case" then chars.map Char.toUpper else chars))

def uniq : Tool :=
  withOptions [⟨some 'c', "count", .nothing⟩, ⟨some 'd', "repeated", .nothing⟩,
    ⟨some 'u', "unique", .nothing⟩, ⟨some 'i', "ignore-case", .nothing⟩,
    ⟨some 'f', "skip-fields", .value⟩, ⟨some 's', "skip-chars", .value⟩,
    ⟨some 'w', "check-chars", .value⟩] false 1 fun state name options =>
      let all (bytes : List UInt8) : List UInt8 :=
        let alike (a b : List UInt8) : Bool := lookedAt options a = lookedAt options b
        let kept := (runs alike (lines bytes)).filter fun row =>
          (!options.has "repeated" || 1 < row.1) && (!options.has "unique" || row.1 = 1)
        unlines (kept.map fun row =>
          if !options.has "count" then row.2
          else
            let digits := Text.natural row.1
            Text.octetBytes (String.ofList (List.replicate (7 - digits.length) ' ') ++ digits
              ++ " ") ++ row.2)
      match options.operands with
      | _ :: _ :: extra :: _ => misused state name ("extra operand " ++ curly extra) 1
      | [file, out] =>
        match content state file with
        | (.error cause, state) => complain state name (plainly file cause)
        | (.ok bytes, state) =>
          match state.disk.writeBytes (path out) (ByteArray.mk (all bytes).toArray) with
          | .ok disk => { state with disk }
          | .error (.system e) => complain state name (plain out ++ ": " ++ e.cause.text)
          | .error fault => complain state name fault.message
      | _ =>
        overFiles plainly (fun state _ bytes => state.writeBytes 1 (all bytes)) name state
          (sources options)

end Emplace.Shell.Tool
