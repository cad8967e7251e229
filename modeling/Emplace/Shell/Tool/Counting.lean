import Emplace.Number.Power
import Emplace.Shell.Printf
import Emplace.Shell.Tool

/-!
The tool that counts. Numbers have so many digits behind the point as those that it is given.
-/
namespace Emplace.Shell.Tool

structure Decimal where
  digits : Int
  places : Nat
  deriving DecidableEq, Repr

namespace Decimal

def ofText? (text : String) : Option Decimal :=
  let (negative, chars) := match text.toList.dropWhile (· = ' ') with
    | '-' :: rest => (true, rest)
    | '+' :: rest => (false, rest)
    | rest => (false, rest)
  let whole := chars.takeWhile Char.isDigit
  let (fraction, rest) := match chars.drop whole.length with
    | '.' :: rest => (rest.takeWhile Char.isDigit, rest.dropWhile Char.isDigit)
    | rest => ([], rest)
  if whole ++ fraction = [] ∨ rest ≠ [] then none
  else
    let n : Int := ((Text.number? 10 (whole ++ fraction)).getD 0 : Nat)
    some ⟨if negative then -n else n, fraction.length⟩

def widened (number : Decimal) (places : Nat) : Int :=
  number.digits * Number.tenTo (places - number.places)

def text (digits : Int) (places : Nat) : String :=
  let chars := (Text.natural digits.natAbs).toList
  let chars := List.replicate (places + 1 - chars.length) '0' ++ chars
  let whole := chars.take (chars.length - places)
  let fraction := chars.drop whole.length
  (if digits < 0 then "-" else "")
    ++ String.ofList (whole ++ if places = 0 then [] else '.' :: fraction)

end Decimal

def counting : Nat → Int → Int → Int → List Int
  | 0, _, _, _ => []
  | fuel + 1, first, step, last =>
    if (0 < step ∧ last < first) ∨ (step < 0 ∧ first < last) then []
    else first :: counting fuel (first + step) step last

def padded (width : Nat) (text : String) : String :=
  let zeros := List.replicate (width - text.length) '0'
  match text.toList with
  | '-' :: rest => String.ofList ('-' :: zeros ++ rest)
  | rest => String.ofList (zeros ++ rest)

def seq : Tool :=
  withOptions [⟨some 's', "separator", .value⟩, ⟨some 'w', "equal-width", .nothing⟩,
    ⟨some 'f', "format", .value⟩] true 1
    fun state name options =>
      let separator := (options.value? "separator").getD "\n"
      let count (first step last : Decimal) : State :=
        let places := max first.places step.places
        let fine := max places last.places
        let (low, pace, high) := (first.widened fine, step.widened fine, last.widened fine)
        let numbers := counting ((high - low).natAbs + 1) low pace high
        let texts := numbers.map fun n =>
          Decimal.text (n / (Number.tenTo (fine - places) : Int)) places
        let ends := [first, last].map fun n =>
          (Decimal.text (n.widened fine / (Number.tenTo (fine - places) : Int)) places).length
        let texts := match options.value? "format" with
          | some format => texts.map fun text =>
            String.ofList (Printf.run format [text]).chars.reverse
          | none =>
            if options.has "equal-width" then texts.map (padded (ends.foldl max 0)) else texts
        if texts.isEmpty then state else state.print (Text.join separator texts ++ "\n")
      let one : Decimal := ⟨1, 0⟩
      match options.operands.map Decimal.ofText?, options.operands with
      | [some last], _ => count one one last
      | [some first, some last], _ => count first one last
      | [some first, some step, some last], words =>
        if step.digits = 0 then
          misused state name ("invalid Zero increment value: " ++ curly (words.getD 1 "")) 1
        else count first step last
      | [], _ => misused state name "missing operand" 1
      | read, words =>
        match (read.zip words).find? fun row => row.1.isNone with
        | some (_, word) => misused state name ("invalid floating point argument: "
            ++ curly word) 1
        | none => misused state name ("extra operand " ++ curly (words.getD 3 "")) 1

end Emplace.Shell.Tool
