import Emplace.Shell.Printf
import Emplace.Shell.Tool.Streams
import Emplace.Text.SixtyFour

/-!
The tools that show bytes as digits, compare files byte by byte and turn lines or files round.
-/
namespace Emplace.Shell.Tool

/-! ## Bytes as digits -/

/-- How bytes are shown: so many together, in cells of a width, each by its text. -/
structure Layout where
  size : Nat
  width : Nat
  text : List UInt8 → List Char

def numberOf (bytes : List UInt8) : Nat :=
  bytes.foldr (fun b n => b.toNat + 256 * n) 0

def inBase (base count n : Nat) : List Char :=
  let digits := Printf.digitsIn base 64 n
  List.replicate (count - digits.length) '0' ++ digits

def characterOf (bytes : List UInt8) : List Char :=
  let n := numberOf bytes
  let escapes :=
    [(0, '0'), (7, 'a'), (8, 'b'), (9, 't'), (10, 'n'), (11, 'v'), (12, 'f'), (13, 'r')]
  match escapes.lookup n with
  | some c => ['\\', c]
  | none => if 32 ≤ n ∧ n < 127 then [Char.ofNat n] else inBase 8 3 n

def signedOf (bytes : List UInt8) : List Char :=
  let n := numberOf bytes
  let half := Number.twoTo (8 * bytes.length - 1)
  if n < half then Text.digits n else '-' :: Text.digits (2 * half - n)

def digitCount (base size : Nat) : Nat :=
  (Printf.digitsIn base 64 (Number.twoTo (8 * size) - 1)).length

def layoutOf? (letter : Char) (size : Nat) : Option Layout :=
  let filled (base : Nat) : Layout :=
    let count := digitCount base size
    ⟨size, count + 1, fun bytes => inBase base count (numberOf bytes)⟩
  match letter with
  | 'c' => some ⟨1, 4, characterOf⟩
  | 'o' => some (filled 8)
  | 'x' => some (filled 16)
  | 'u' => some ⟨size, digitCount 10 size + 1, fun bytes => Text.digits (numberOf bytes)⟩
  | 'd' => some ⟨size, digitCount 10 size + 2 - (if size = 8 then 1 else 0), signedOf⟩
  | _ => none

/-- The layout of a type as it is written: a letter and perhaps a number of bytes. -/
def typed? (text : String) : Option Layout :=
  match text.toList with
  | [c] => layoutOf? c (if c = 'c' then 1 else 4)
  | [c, d] => if ['1', '2', '4', '8'].contains d then layoutOf? c (d.toNat - 48) else none
  | _ => none

def rowsOf : Nat → List UInt8 → List (List UInt8)
  | 0, _ => []
  | _, [] => []
  | fuel + 1, bytes => bytes.take 16 :: rowsOf fuel (bytes.drop 16)

def cells (layout : Layout) : Nat → List UInt8 → List Char
  | 0, _ => []
  | _, [] => []
  | fuel + 1, bytes =>
    let text := layout.text (bytes.take layout.size)
    List.replicate (layout.width - text.length) ' ' ++ text
      ++ cells layout fuel (bytes.drop layout.size)

/-- Rows as lines; of equal rows in a row only the first is shown, and a star for the others. -/
def dumped (layout : Layout) (address : Nat → List Char) (all : Bool) :
    Nat → Option (List UInt8) → Bool → List (List UInt8) → List (List Char)
  | _, _, _, [] => []
  | start, last, starred, row :: rest =>
    let next := start + row.length
    if !all ∧ last = some row ∧ row.length = 16 then
      (if starred then [] else [['*']]) ++ dumped layout address all next last true rest
    else
      (address start ++ cells layout 16 row) :: dumped layout address all next (some row) false rest

def od : Tool :=
  withOptions [⟨some 'A', "address-radix", .value⟩, ⟨some 't', "format", .value⟩,
    ⟨some 'v', "output-duplicates", .nothing⟩, ⟨some 'N', "read-bytes", .value⟩,
    ⟨some 'j', "skip-bytes", .value⟩, ⟨some 'c', "c", .nothing⟩, ⟨some 'b', "b", .nothing⟩,
    ⟨some 'x', "x", .nothing⟩, ⟨some 'd', "d", .nothing⟩, ⟨some 'o', "o", .nothing⟩] false 1
    fun state name options =>
      let count (word : String) : Option Nat :=
        (options.value? word).bind fun text => Text.number? 10 text.toList
      let type := match options.value? "format" with
        | some text => text
        | none =>
          if options.has "c" then "c" else if options.has "b" then "o1"
          else if options.has "x" then "x2" else if options.has "d" then "u2" else "o2"
      let address (n : Nat) : List Char :=
        match options.value? "address-radix" with
        | some "n" => []
        | some "d" => inBase 10 7 n
        | some "x" => inBase 16 6 n
        | _ => inBase 8 7 n
      match typed? type with
      | none =>
        complain state name ("invalid character '" ++ String.ofList (type.toList.take 1)
          ++ "' in type string " ++ curly type)
      | some layout =>
        let read (row : State × List UInt8) (file : String) : State × List UInt8 :=
          match content row.1 file with
          | (.ok bytes, state) => (state, row.2 ++ bytes)
          | (.error cause, state) => (complain state name (plainly file cause), row.2)
        let (state, bytes) := (sources options).foldl read (state, [])
        let first := (count "skip-bytes").getD 0
        let bytes := bytes.drop first
        let bytes := bytes.take ((count "read-bytes").getD bytes.length)
        let lines := dumped layout address (options.has "output-duplicates") first none false
          (rowsOf bytes.length bytes)
        let final := address (first + bytes.length)
        let lines := if final.isEmpty then lines else lines ++ [final]
        state.print (String.join (lines.map fun line => String.ofList (line ++ ['\n'])))

/-! ## Sixty-four characters -/

def sixtyFour (bytes : List UInt8) : List Char :=
  let digits := "ABCDEFGHIJKLMNOPQRSTUVWXYZabcdefghijklmnopqrstuvwxyz0123456789+/".toList
  let three := bytes ++ List.replicate (3 - bytes.length) 0
  let n := three.foldl (fun (n : Nat) (b : UInt8) => n * 256 + b.toNat) 0
  let digit (place : Nat) : Char := digits.getD (n / place % 64) 'A'
  let all := [digit 262144, digit 4096, digit 64, digit 1]
  all.take (bytes.length + 1) ++ List.replicate (3 - bytes.length) '='

def groups {α : Type} (size : Nat) : Nat → List α → List (List α)
  | 0, _ => []
  | _, [] => []
  | fuel + 1, all => all.take size :: groups size fuel (all.drop size)

def base64 : Tool :=
  withOptions [⟨some 'd', "decode", .nothing⟩, ⟨some 'i', "ignore-garbage", .nothing⟩,
    ⟨some 'w', "wrap", .value⟩] false 1 fun state name options =>
      overFiles plainly (fun state _ bytes =>
        if options.has "decode" then
          let chars := (Text.octets bytes).toList.filter (· ≠ '\n')
          match Text.SixtyFour.decode chars with
          | .ok decoded => state.writeBytes 1 decoded
          | .error _ => complain state name "invalid input"
        else
          let chars := (groups 3 bytes.length bytes).flatMap sixtyFour
          let width := ((options.value? "wrap").bind fun text =>
            Text.number? 10 text.toList).getD 76
          let lines := if width = 0 then [chars] else groups width chars.length chars
          let ends := if width = 0 then "" else "\n"
          state.print (String.join (lines.map fun line => String.ofList line ++ ends)))
        name state ((sources options).take 1)

/-! ## Comparison -/

/-- How far two contents are equal: the bytes and the line ends in front of the first
difference. -/
def equalFront : List UInt8 → List UInt8 → Nat × Nat
  | a :: more, b :: others =>
    if a = b then
      let (bytes, lines) := equalFront more others
      (bytes + 1, lines + if a = 10 then 1 else 0)
    else (0, 0)
  | _, _ => (0, 0)

def endedEarly (file : String) (content : List UInt8) (lines : Nat) : String :=
  if content.isEmpty then "EOF on " ++ file ++ " which is empty"
  else "EOF on " ++ file ++ " after byte " ++ Text.natural content.length
    ++ (if content.getLast? = some 10 then ", line " ++ Text.natural lines
      else ", in line " ++ Text.natural (lines + 1))

def cmp : Tool :=
  withOptions [⟨some 's', "silent", .nothing⟩, ⟨none, "quiet", .nothing⟩] false 2
    fun state name options =>
      let silent := options.hasAny ["silent", "quiet"]
      let files := match options.operands with
        | [file] => [file, "-"]
        | files => files
      match files with
      | [first, second] =>
        match content state first with
        | (.error cause, state) =>
          (complain state name (first ++ ": " ++ cause.text)).withStatus 2
        | (.ok one, state) =>
          match content state second with
          | (.error cause, state) =>
            (complain state name (second ++ ": " ++ cause.text)).withStatus 2
          | (.ok other, state) =>
            let (bytes, lines) := equalFront one other
            let tell (what : String) : State :=
              if silent then state.withStatus 1 else complain state name what
            if one = other then state
            else if bytes = one.length then tell (endedEarly first one lines)
            else if bytes = other.length then tell (endedEarly second other lines)
            else
              let state := if silent then state else state.print (first ++ " " ++ second
                ++ " differ: byte " ++ Text.natural (bytes + 1) ++ ", line "
                ++ Text.natural (lines + 1) ++ "\n")
              state.withStatus 1
      | _ =>
        ((state.tell (name ++ ": missing operand after '" ++ name ++ "'")).tell
          (name ++ ": Try '" ++ name ++ " --help' for more information.")).withStatus 2

/-! ## Turned round -/

def tac : Tool :=
  withOptions [] false 1 fun state name options =>
    overFiles (fun file cause =>
        "failed to open " ++ quoted file ++ " for reading: " ++ cause.text)
      (fun state _ bytes => state.writeBytes 1 (rawLines bytes).reverse.flatten) name state
      (sources options)

def characters : List UInt8 → List (List UInt8)
  | [] => []
  | b :: rest =>
    match characters rest with
    | (next :: more) :: others =>
      if 128 ≤ next ∧ next < 192 then (b :: next :: more) :: others
      else [b] :: (next :: more) :: others
    | others => [b] :: others

def rev : Tool :=
  withOptions [] false 1 fun state name options =>
    overFiles (fun file cause => "cannot open " ++ file ++ ": " ++ cause.text)
      (fun state _ bytes =>
        let turned := (lines bytes).map fun line => (characters line).reverse.flatten
        let all := unlines turned
        state.writeBytes 1 (if bytes.getLast? = some 10 then all else all.dropLast)) name state
      (sources options)

def yesCount : Nat := 4096

def yes : Tool := fun state _ arguments =>
  let line := if arguments.isEmpty then "y" else Text.join " " arguments
  (state.print (String.join (List.replicate yesCount (line ++ "\n")))).withStatus 0

end Emplace.Shell.Tool
