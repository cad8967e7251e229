import Emplace.Number.Rounded
import Emplace.Shell.Arithmetic
import Emplace.Text.Pieces
import Emplace.Text.Quoted

/-!
Formatted output of the shell: a format with escapes and places for arguments, used again as long as
there are arguments.
-/
namespace Emplace.Shell.Printf

def isOctal (c : Char) : Bool := '0' ≤ c && c ≤ '7'

def octal (digits : List Char) : Char := Char.ofNat ((Text.number? 8 digits).getD 0 % 256)

def letters : List (Char × Char) := [
  ('\\', '\\'), ('a', '\x07'), ('b', '\x08'), ('e', '\x1b'), ('f', '\x0c'), ('n', '\n'),
  ('r', '\r'), ('t', '\t'), ('v', '\x0b')]

/-- What an escape stands for, and what follows it; the text is behind the backslash. -/
def escape (chars : List Char) : List Char × List Char :=
  match chars with
  | [] => (['\\'], [])
  | c :: rest =>
    if isOctal c then
      let digits := (chars.take 3).takeWhile isOctal
      ([octal digits], chars.drop digits.length)
    else match letters.lookup c with
      | some byte => ([byte], rest)
      | none => (['\\'], chars)

/-- A text with its escapes carried out, and whether one of them ends all output. -/
def unescaped : Nat → List Char → List Char × Bool
  | 0, _ => ([], false)
  | _, [] => ([], false)
  | fuel + 1, '\\' :: rest =>
    match rest with
    | 'c' :: _ => ([], true)
    | '0' :: rest =>
      let digits := (rest.take 3).takeWhile isOctal
      let (chars, ended) := unescaped fuel (rest.drop digits.length)
      (octal digits :: chars, ended)
    | _ =>
      let (chars, rest) := escape rest
      let (others, ended) := unescaped fuel rest
      (chars ++ others, ended)
  | fuel + 1, c :: rest =>
    let (chars, ended) := unescaped fuel rest
    (c :: chars, ended)

structure Slot where
  left : Bool
  sign : List Char
  zeros : Bool
  marked : Bool
  width : Nat
  precision : Option Nat

def fill (slot : Slot) (chars : List Char) : List Char :=
  let gap := List.replicate (slot.width - chars.length) ' '
  if slot.left then chars ++ gap else gap ++ chars

def cut (slot : Slot) (chars : List Char) : List Char :=
  match slot.precision with
  | some n => chars.take n
  | none => chars

def fillNumber (slot : Slot) (sign digits : List Char) : List Char :=
  let least := match slot.precision with
    | some n => n
    | none => if slot.zeros && !slot.left then slot.width - sign.length else 0
  fill slot (sign ++ List.replicate (least - digits.length) '0' ++ digits)

def digitsIn (base : Nat) : Nat → Nat → List Char
  | 0, _ => []
  | fuel + 1, n =>
    if n < base then [Text.hexDigit n]
    else digitsIn base fuel (n / base) ++ [Text.hexDigit (n % base)]

/-- The number that an argument stands for, between two bounds, and what is wrong with it. -/
def numberOf (least most : Int) (argument : String) : Int × Option String :=
  let complaint (what : String) : Option String := some (argument ++ ": " ++ what)
  match argument.toList with
  | [] => (0, none)
  | '\'' :: c :: _ => (c.toNat, none)
  | '"' :: c :: _ => (c.toNat, none)
  | chars =>
    let (negative, digits) := match chars.dropWhile Arithmetic.isSpace with
      | '-' :: rest => (true, rest)
      | '+' :: rest => (false, rest)
      | rest => (false, rest)
    if !digits.head?.any Char.isDigit then (0, complaint "expected numeric value")
    else
      let (n, rest) := Arithmetic.literal digits
      let i : Int := if negative then -(n : Int) else n
      let kept := max least (min i most)
      (kept,
        if !rest.isEmpty then complaint "not completely converted"
        else if kept ≠ i then complaint "Numerical result out of range"
        else none)

/-- The words for what is no finite number, and what they stand for. -/
def infinities : List (String × Number.Double) := [
  ("infinity", .infinite false), ("inf", .infinite false), ("nan", .nan)]

/-- The decimal at the front of some characters, and how many they are. -/
def decimalFront (chars : List Char) : Number.Double × Nat :=
  let whole := chars.takeWhile Char.isDigit
  let behind := chars.drop whole.length
  let (fraction, behind) := match behind with
    | '.' :: rest =>
      let digits := rest.takeWhile Char.isDigit
      if whole.isEmpty ∧ digits.isEmpty then ([], behind)
      else ('.' :: digits, rest.drop digits.length)
    | _ => ([], behind)
  let body := whole ++ fraction
  let power := match behind with
    | e :: rest =>
      if body.isEmpty ∨ (e ≠ 'e' ∧ e ≠ 'E') then []
      else
        let sign := rest.takeWhile fun c => c = '-' || c = '+'
        let digits := (rest.drop sign.length).takeWhile Char.isDigit
        if digits.isEmpty ∨ 1 < sign.length then [] else e :: sign ++ digits
    | [] => []
  let all := body ++ power
  ((Number.decimal? false all).getD (.zero false), all.length)

/-- The number at the front of some characters, and how many they are; hexadecimal ones are
whole. -/
def numberFront (chars : List Char) : Number.Double × Nat :=
  let lower := String.ofList (chars.map Char.toLower)
  match infinities.find? fun row => Text.startsWith lower row.1, chars with
  | some (word, number), _ => (number, word.length)
  | none, '0' :: x :: rest =>
    let digits := rest.takeWhile Char.isHexDigit
    if (x = 'x' ∨ x = 'X') ∧ !digits.isEmpty then
      (.ofInt ((Text.number? 16 digits).getD 0 : Nat), 2 + digits.length)
    else decimalFront chars
  | none, chars => decimalFront chars

/-- Whether a number read from digits is too far from one to be written as it was: it came out as
infinite, or as zero from digits that are not all zero. -/
def isLost (chars : List Char) : Number.Double → Bool
  | .infinite _ => chars.head?.any fun c => c.isDigit || c = '.'
  | .nan => false
  | number => number.isZero &&
    (chars.takeWhile fun c => c.isDigit || c = '.').any fun c => '1' ≤ c && c ≤ '9'

/-- The sign and the size of the floating-point number that an argument stands for, and what is
wrong with it. -/
def doubleOf (argument : String) : Bool × Number.Double × Option String :=
  let complaint (what : String) : Option String := some (argument ++ ": " ++ what)
  match argument.toList with
  | [] => (false, .zero false, none)
  | '\'' :: c :: _ => (false, .ofInt c.toNat, none)
  | '"' :: c :: _ => (false, .ofInt c.toNat, none)
  | chars =>
    let bare := chars.dropWhile Arithmetic.isSpace
    let (negative, bare) := match bare with
      | '-' :: rest => (true, rest)
      | '+' :: rest => (false, rest)
      | rest => (false, rest)
    let (number, length) := numberFront bare
    if length = 0 then (false, .zero false, complaint "expected numeric value")
    else
      (negative, number,
        if length < bare.length then complaint "not completely converted"
        else if isLost bare number then complaint "Numerical result out of range"
        else none)

/-- The output so far, last character first, the arguments that are left, and what was wrong. -/
structure Progress where
  chars : List Char
  left : List String
  complaints : List String
  status : Nat
  used : Bool
  closed : Bool

namespace Progress

def add (progress : Progress) (chars : List Char) : Progress :=
  { progress with chars := chars.reverse ++ progress.chars }

def complain (progress : Progress) (status : Nat) (what : String) : Progress :=
  { progress with complaints := what :: progress.complaints, status }

def giveUp (progress : Progress) (what : String) : Progress :=
  { progress.complain 2 what with closed := true }

def next (progress : Progress) : String × Progress :=
  (progress.left.headD "", { progress with left := progress.left.tail, used := true })

def nextNumber (progress : Progress) (least most : Int) : Int × Progress :=
  let (argument, progress) := progress.next
  match numberOf least most argument with
  | (i, none) => (i, progress)
  | (i, some what) => (i, progress.complain 1 what)

end Progress

/-- A width or a precision: digits, or a star for the next argument. -/
def size (progress : Progress) : List Char → Option Int × Progress × List Char
  | '*' :: rest =>
    let (i, progress) := progress.nextNumber Arithmetic.least Arithmetic.most
    (some i, progress, rest)
  | chars =>
    let digits := chars.takeWhile Char.isDigit
    (if digits.isEmpty then none else some ((Text.number? 10 digits).getD 0 : Nat), progress,
      chars.drop digits.length)

/-- The flags, the width and the precision of a place, and what follows them. -/
def slotOf (progress : Progress) (chars : List Char) : Slot × Progress × List Char :=
  let flags := chars.takeWhile ['-', '+', ' ', '0', '#'].contains
  let (width, progress, rest) := size progress (chars.drop flags.length)
  let width := width.getD 0
  let (precision, progress, rest) := match rest with
    | '.' :: rest =>
      let (precision, progress, rest) := size progress rest
      (some (precision.getD 0).toNat, progress, rest)
    | rest => (none, progress, rest)
  let sign := if flags.contains '+' then ['+'] else if flags.contains ' ' then [' '] else []
  (⟨flags.contains '-' || width < 0, sign, flags.contains '0', flags.contains '#', width.natAbs,
    precision⟩, progress, rest)

def mostUnsigned : Int := 18446744073709551615

def unsigned (progress : Progress) (slot : Slot) (base : Nat) (mark : List Char) :
    List Char × Progress :=
  let (i, progress) := progress.nextNumber (-mostUnsigned) mostUnsigned
  let n := (i.emod (mostUnsigned + 1)).toNat
  (fillNumber slot (if slot.marked && n != 0 then mark else []) (digitsIn base 64 n), progress)

def place (progress : Progress) (slot : Slot) (letter : Char) : Progress :=
  let put (filled : List Char × Progress) : Progress := filled.2.add filled.1
  match letter with
  | 's' =>
    let (argument, progress) := progress.next
    progress.add (fill slot (cut slot argument.toList))
  | 'b' =>
    let (argument, progress) := progress.next
    let (chars, ended) := unescaped (argument.length + 1) argument.toList
    { progress.add (fill slot (cut slot chars)) with closed := ended }
  | 'c' =>
    let (argument, progress) := progress.next
    progress.add (fill slot [argument.toList.headD '\x00'])
  | 'o' => put (unsigned progress slot 8 ['0'])
  | 'x' => put (unsigned progress slot 16 ['0', 'x'])
  | 'X' =>
    let (chars, progress) := unsigned progress slot 16 ['0', 'X']
    progress.add (chars.map Char.toUpper)
  | 'u' => put (unsigned progress slot 10 [])
  | _ =>
    let (i, progress) := progress.nextNumber Arithmetic.least Arithmetic.most
    let sign := if i < 0 then ['-'] else slot.sign
    progress.add (fillNumber slot sign (digitsIn 10 64 i.natAbs))

def floating : List Char := ['e', 'E', 'f', 'F', 'g', 'G']

/-- A floating-point number without a sign in a place with a letter and a sign. -/
def floatDigits (slot : Slot) (letter : Char) (sign : List Char) (number : Number.Double) :
    List Char :=
  let chars : List Char := match number with
    | .nan => ['n', 'a', 'n']
    | .infinite _ => ['i', 'n', 'f']
    | .finite _ mantissa exponent =>
      let count := slot.precision.getD 6
      match letter.toLower with
      | 'f' => Number.Rounded.fixed slot.marked count mantissa exponent
      | 'e' => Number.Rounded.scientific slot.marked count mantissa exponent
      | _ => Number.Rounded.general slot.marked count mantissa exponent
  let finite := match number with
    | .finite _ _ _ => true
    | _ => false
  let filled := fillNumber { slot with precision := none, zeros := slot.zeros && finite } sign chars
  if letter.isUpper then filled.map Char.toUpper else filled

def floatPlace (progress : Progress) (slot : Slot) (letter : Char) : Progress :=
  let (argument, progress) := progress.next
  let (negative, number, what) := doubleOf argument
  let progress := (what.map (progress.complain 1)).getD progress
  progress.add (floatDigits slot letter (if negative then ['-'] else slot.sign) number)

def once : Nat → List Char → Progress → Progress
  | 0, _, progress => progress
  | _, [], progress => progress
  | fuel + 1, c :: rest, progress =>
    if progress.closed then progress
    else if c = '\\' then
      let (chars, rest) := escape rest
      once fuel rest (progress.add chars)
    else if c = '%' then
      match rest with
      | '%' :: rest => once fuel rest (progress.add ['%'])
      | _ =>
        match slotOf progress rest with
        | (_, progress, []) => progress.giveUp "missing format character"
        | (slot, progress, letter :: behind) =>
          if ['s', 'b', 'c', 'd', 'i', 'o', 'u', 'x', 'X'].contains letter then
            once fuel behind (place progress slot letter)
          else if floating.contains letter then
            once fuel behind (floatPlace progress slot letter)
          else
            let read := rest.take (rest.length - behind.length)
            progress.giveUp ("%" ++ String.ofList read ++ ": invalid directive")
    else once fuel rest (progress.add [c])

def repeated : Nat → List Char → Progress → Progress
  | 0, _, progress => progress
  | fuel + 1, format, progress =>
    let progress := once (format.length + 1) format { progress with used := false }
    if progress.closed || progress.left.isEmpty || !progress.used then progress
    else repeated fuel format progress

def run (format : String) (arguments : List String) : Progress :=
  repeated (arguments.length + 1) format.toList ⟨[], arguments, [], 0, false, false⟩

end Emplace.Shell.Printf
