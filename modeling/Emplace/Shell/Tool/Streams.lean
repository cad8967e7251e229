import Emplace.Shell.Tool

/-!
The tools that read files or their input and write what they make of it.
-/
namespace Emplace.Shell.Tool

/-- Goes through files, or through the input where there are none; a file that cannot be read is
complained about. -/
def overFiles (complaint : String → Cause → String)
    (act : State → String → List UInt8 → State) (name : String) : State → List String → State
  | state, [] => state
  | state, file :: rest =>
    match content state file with
    | (.ok bytes, state) => overFiles complaint act name (act state file bytes) rest
    | (.error cause, state) =>
      overFiles complaint act name (complain state name (complaint file cause)) rest

def sources (options : Options) : List String :=
  if options.operands.isEmpty then ["-"] else options.operands

def plainly (file : String) (cause : Cause) : String := plain file ++ ": " ++ cause.text

def rawLines (bytes : List UInt8) : List (List UInt8) :=
  let all := lines bytes
  if bytes.getLast? = some 10 then all.map (· ++ [10])
  else match all.reverse with
    | [] => []
    | last :: others => (last :: others.map (· ++ [10])).reverse

def visibly (b : UInt8) : List UInt8 :=
  let low (b : UInt8) : List UInt8 :=
    if b < 32 then [94, b + 64] else if b = 127 then [94, 63] else [b]
  if b < 128 then low b else [77, 45] ++ low (b - 128)

structure Page where
  number : Nat
  fresh : Bool
  gap : Bool

def Page.line (options : Options) (page : Page) (line : List UInt8) : Page × List UInt8 :=
  let bare := line = [10] && page.fresh
  if bare ∧ page.gap ∧ options.has "squeeze-blank" then (page, [])
  else
    let counts := page.fresh && (if options.has "number-nonblank" then line ≠ [10]
      else options.has "number")
    let digits := Text.natural page.number
    let front := if counts then
        List.replicate (6 - digits.length) (32 : UInt8) ++ Text.octetBytes digits ++ [9]
      else []
    let shown (b : UInt8) : List UInt8 :=
      if b = 10 then (if options.hasAny ["show-ends", "A", "e"] then [36, 10] else [10])
      else if b = 9 then (if options.hasAny ["show-tabs", "A", "t"] then [94, 73] else [9])
      else if options.hasAny ["show-nonprinting", "A", "e", "t"] then visibly b
      else [b]
    (⟨if counts then page.number + 1 else page.number, line.getLast? = some 10, bare⟩,
      front ++ line.flatMap shown)

def isOutput (state : State) (file : String) : Bool :=
  match state.handle? 1, placeOf state file with
  | some (_, ⟨.file out, _, _, _⟩), some loc => out = loc
  | _, _ => false
where
  placeOf (state : State) (file : String) : Option Location :=
    match state.locate .target file with
    | .ok (.present loc (.file bytes _)) => if bytes.isEmpty then none else some loc
    | _ => none

def cat : Tool :=
  withOptions ([⟨some 'n', "number", .nothing⟩, ⟨some 'b', "number-nonblank", .nothing⟩,
    ⟨some 'E', "show-ends", .nothing⟩, ⟨some 's', "squeeze-blank", .nothing⟩,
    ⟨some 'T', "show-tabs", .nothing⟩, ⟨some 'v', "show-nonprinting", .nothing⟩,
    ⟨some 'A', "A", .nothing⟩, ⟨none, "show-all", .nothing⟩] ++ Flag.plain "etu") false 1
    fun state name options =>
      let act (row : State × Page) (file : String) : State × Page :=
        let (state, page) := row
        if isOutput state file then
          (complain state name (plain file ++ ": input file is output file"), page)
        else match content state file with
          | (.error cause, state) => (complain state name (plainly file cause), page)
          | (.ok bytes, state) =>
            let add (row : Page × List (List UInt8)) (line : List UInt8) :=
              let (page, text) := row.1.line options line
              (page, text :: row.2)
            let (page, shown) := (rawLines bytes).foldl add (page, [])
            (state.writeBytes 1 shown.reverse.flatten, page)
      ((sources options).foldl act (state, ⟨1, true, false⟩)).1

def tee : Tool :=
  withOptions [⟨some 'a', "append", .nothing⟩, ⟨some 'i', "ignore-interrupts", .nothing⟩] false 1
    fun state name options =>
      let (bytes, state) := state.takeAll 0
      let write (state : State) (file : String) : State :=
        let old := match state.entry file with
          | .ok (.file old _) => if options.has "append" then old.toList else []
          | _ => []
        match state.disk.writeBytes (path file) (ByteArray.mk (old ++ bytes).toArray) with
        | .ok disk => { state with disk }
        | .error (.system e) => complain state name (plain file ++ ": " ++ e.cause.text)
        | .error fault => complain state name fault.message
      options.operands.foldl write (state.writeBytes 1 bytes)

/-! ## Fronts and ends -/

structure Portion where
  bytes : Bool
  count : Nat
  /-- A minus sign for all but so many at the other side, a plus sign for all from there on. -/
  sign : Option Char

def portion? (bytes : Bool) (text : String) : Option Portion :=
  let (sign, digits) := match text.toList with
    | '-' :: rest => (some '-', rest)
    | '+' :: rest => (some '+', rest)
    | rest => (none, rest)
  if digits.isEmpty then none
  else (Text.number? 10 digits).map fun count => ⟨bytes, count, sign⟩

def withOldCount (arguments : List String) : List String :=
  match arguments with
  | [] => []
  | first :: rest =>
    match first.toList with
    | '-' :: c :: more =>
      if c.isDigit then
        let digits := (c :: more).takeWhile Char.isDigit
        let letters := (c :: more).drop digits.length
        let count := String.ofList digits
        if letters.isEmpty then "-n" :: count :: rest
        else if letters = ['c'] then "-c" :: count :: rest
        else first :: rest
      else first :: rest
    | _ => first :: rest

def pieces (bytes : Bool) (content : List UInt8) : List (List UInt8) :=
  if bytes then content.map ([·]) else rawLines content

def front (portion : Portion) (content : List UInt8) : List UInt8 :=
  let all := pieces portion.bytes content
  (match portion.sign with
    | some '-' => all.take (all.length - portion.count)
    | _ => all.take portion.count).flatten

def back (portion : Portion) (content : List UInt8) : List UInt8 :=
  let all := pieces portion.bytes content
  (match portion.sign with
    | some '+' => all.drop (portion.count - 1)
    | _ => all.drop (all.length - portion.count)).flatten

def portioned (cut : Portion → List UInt8 → List UInt8) : Tool := fun state name arguments =>
  withOptions [⟨some 'n', "lines", .value⟩, ⟨some 'c', "bytes", .value⟩,
    ⟨some 'q', "quiet", .nothing⟩, ⟨some 'v', "verbose", .nothing⟩,
    ⟨some 'f', "follow", .perhaps⟩] false 1 (fun state name options =>
      let asked := options.given.reverse.find? fun row => ["lines", "bytes"].contains row.1
      let (word, text) := asked.getD ("lines", "10")
      match portion? (word = "bytes") text with
      | none => complain state name ("invalid number of " ++ word ++ ": "
          ++ curly (if text.startsWith "-" then Text.dropStart text "-" else text))
      | some portion =>
        let files := sources options
        let headed := options.has "verbose" || (1 < files.length && !options.has "quiet")
        let shown (row : State × Bool) (file : String) : State × Bool :=
          let (state, begun) := row
          match content state file with
          | (.error cause, state) =>
            (complain state name (if cause = .isDirectory then
                "error reading " ++ quoted file ++ ": " ++ cause.text
              else "cannot open " ++ quoted file ++ " for reading: " ++ cause.text), begun)
          | (.ok bytes, state) =>
            let title := if file = "-" then "standard input" else file
            let state := if headed then
                state.print ((if begun then "\n" else "") ++ "==> " ++ title ++ " <==\n")
              else state
            (state.writeBytes 1 (cut portion bytes), true)
        (files.foldl shown (state, false)).1) state name (withOldCount arguments)

def head : Tool := portioned front

def tail : Tool := portioned back

/-! ## Counts -/

def countLine (width : Nat) (counts : List Nat) (file : String) : String :=
  let cell (n : Nat) : String :=
    let digits := Text.natural n
    String.ofList (List.replicate (width - digits.length) ' ') ++ digits
  Text.join " " (counts.map cell) ++ (if file = "" then "" else " " ++ file) ++ "\n"

def wordCount (bytes : List UInt8) : Nat :=
  (Text.pieces true (bytes.map fun b => b = 32 || (9 ≤ b && b ≤ 13))).countP fun w => !w.isEmpty

/-- The lines, words, characters and bytes of a content. -/
def countsOf (bytes : List UInt8) : List (String × Nat) := [
  ("lines", bytes.count 10), ("words", wordCount bytes),
  ("chars", (bytes.filter fun b => b < 128 || 192 ≤ b).length), ("bytes", bytes.length)]

def wc : Tool :=
  withOptions [⟨some 'l', "lines", .nothing⟩, ⟨some 'w', "words", .nothing⟩,
    ⟨some 'm', "chars", .nothing⟩, ⟨some 'c', "bytes", .nothing⟩] false 1
    fun state name options =>
      let all := ["lines", "words", "chars", "bytes"]
      let wanted := match all.filter options.has with
        | [] => ["lines", "words", "bytes"]
        | found => found
      let files := sources options
      let read (row : State × List (String × List UInt8)) (file : String) :=
        match content row.1 file with
        | (.ok bytes, state) => (state, row.2 ++ [(file, bytes)])
        | (.error .isDirectory, state) =>
          (complain state name (plainly file .isDirectory), row.2 ++ [(file, [])])
        | (.error cause, state) => (complain state name (plainly file cause), row.2)
      let (state, found) := files.foldl read (state, [])
      let isOpen (file : String) : Bool := file = "-" || match state.entry file with
        | .ok (.file _ _) => false
        | .ok _ => true
        | .error _ => false
      let pick (bytes : List UInt8) : List Nat :=
        wanted.map fun word => ((countsOf bytes).lookup word).getD 0
      let total := found.flatMap Prod.snd
      let width :=
        if wanted.length = 1 ∧ files.length = 1 then 1
        else if files.any isOpen then 7
        else (Text.natural total.length).length
      let state := found.foldl (fun state row =>
        state.print (countLine width (pick row.2)
          (if options.operands.isEmpty then "" else row.1))) state
      if files.length ≤ 1 then state
      else
        let sums := wanted.map fun word =>
          found.foldl (fun sum row => sum + ((countsOf row.2).lookup word).getD 0) 0
        state.print (countLine width sums "total")

/-! ## Characters and columns -/

def classes : List (String × List Char) :=
  let between (a b : Nat) : List Char := (List.range (b + 1 - a)).map fun n => Char.ofNat (a + n)
  let upper := between 65 90
  let lower := between 97 122
  let digit := between 48 57
  [("upper", upper), ("lower", lower), ("digit", digit), ("alpha", upper ++ lower),
    ("alnum", digit ++ upper ++ lower), ("space", between 9 13 ++ [' ']), ("blank", ['\t', ' ']),
    ("punct", between 33 47 ++ between 58 64 ++ between 91 96 ++ between 123 126),
    ("print", between 32 126), ("graph", between 33 126), ("cntrl", between 0 31 ++ ['\x7f'])]

def escapes : Nat → List Char → List Char
  | 0, _ => []
  | _, [] => []
  | fuel + 1, '\\' :: c :: rest =>
    let octal := ((c :: rest).take 3).takeWhile fun c => '0' ≤ c && c ≤ '7'
    if !octal.isEmpty then
      Char.ofNat ((Text.number? 8 octal).getD 0 % 256)
        :: escapes fuel ((c :: rest).drop octal.length)
    else
      let plain := [('n', '\n'), ('t', '\t'), ('r', '\r'), ('a', '\x07'), ('b', '\x08'),
        ('f', '\x0c'), ('v', '\x0b')]
      (plain.lookup c).getD c :: escapes fuel rest
  | fuel + 1, c :: rest => c :: escapes fuel rest

def members : Nat → List Char → List Char
  | 0, _ => []
  | _, [] => []
  | fuel + 1, '[' :: ':' :: rest =>
    let name := rest.takeWhile Char.isAlpha
    match classes.lookup (String.ofList name), rest.drop name.length with
    | some chars, ':' :: ']' :: rest => chars ++ members fuel rest
    | _, _ => '[' :: members fuel (':' :: rest)
  | fuel + 1, a :: '-' :: b :: rest =>
    if a ≤ b then
      (List.range (b.toNat + 1 - a.toNat)).map (fun n => Char.ofNat (a.toNat + n))
        ++ members fuel rest
    else members fuel rest
  | fuel + 1, c :: rest => c :: members fuel rest

def setOf (text : String) : List Char :=
  members (text.length + 1) (escapes (text.length + 1) text.toList)

def squeezed (set : List Char) : Option Char → List Char → List Char
  | _, [] => []
  | last, c :: rest =>
    if last = some c ∧ set.contains c then squeezed set last rest
    else c :: squeezed set (some c) rest

def tr : Tool :=
  withOptions [⟨some 'd', "delete", .nothing⟩, ⟨some 's', "squeeze-repeats", .nothing⟩,
    ⟨some 'c', "complement", .nothing⟩, ⟨some 'C', "complement", .nothing⟩] true 1
    fun state name options =>
      let delete := options.has "delete"
      let squeeze := options.has "squeeze-repeats"
      let least := if delete = squeeze then 2 else 1
      let most := if delete ∧ !squeeze then 1 else 2
      let count := options.operands.length
      let needed :=
        "Two strings must be given when " ++ (if squeeze then "both deleting and squeezing repeats."
          else "translating.")
      let usage (what : String) (more : Option String) : State :=
        let state := state.tell (name ++ ": " ++ what)
        let state := (more.map state.tell).getD state
        (state.tell ("Try '" ++ name ++ " --help' for more information.")).withStatus 1
      if count = 0 then usage "missing operand" none
      else if count < least then
        usage ("missing operand after " ++ curly (options.operands.getLastD "")) (some needed)
      else if most < count then
        usage ("extra operand " ++ curly (options.operands.getD most ""))
          (if count = 2 then
            some "Only one string may be given when deleting without squeezing repeats."
          else none)
      else if !delete ∧ options.operands[1]? = some "" then
        complain state name "when not truncating set1, string2 must be non-empty"
      else
        let (bytes, state) := state.takeAll 0
        let text := (Text.octets bytes).toList
        let all := (List.range 256).map Char.ofNat
        let first := setOf (options.operands.headD "")
        let first := if options.has "complement" then all.filter (!first.contains ·) else first
        let second := options.operands[1]?.map setOf
        let put (chars : List Char) : State :=
          state.writeBytes 1 (Text.octetBytes (String.ofList chars))
        match second with
        | none => put (if delete then text.filter (!first.contains ·) else squeezed first none text)
        | some second =>
          let mapped (c : Char) : Char :=
            match first.idxOf? c with
            | none => c
            | some i => second[i]?.getD (second.getLastD c)
          let changed := if delete then text.filter (!first.contains ·) else text.map mapped
          put (if squeeze then squeezed second none changed else changed)

def columns (list : String) : List (Nat × Option Nat) :=
  (Text.split ',' list).map fun range =>
    match Text.split '-' range with
    | [n] =>
      let n := (Text.number? 10 n.toList).getD 0
      (n, some n)
    | first :: last :: _ =>
      (if first = "" then 1 else (Text.number? 10 first.toList).getD 1,
        if last = "" then none else Text.number? 10 last.toList)
    | [] => (0, some 0)

def inColumns {α : Type} (others : Bool) (list : String) (items : List α) : List α :=
  (items.zipIdx.filter fun (_, i) => ((columns list).any fun (least, most) =>
    least ≤ i + 1 && most.all (i + 1 ≤ ·)) != others).map Prod.fst

def cut : Tool :=
  withOptions [⟨some 'd', "delimiter", .value⟩, ⟨some 'f', "fields", .value⟩,
    ⟨some 'c', "characters", .value⟩, ⟨some 'b', "bytes", .value⟩,
    ⟨some 's', "only-delimited", .nothing⟩, ⟨none, "output-delimiter", .value⟩,
    ⟨none, "complement", .nothing⟩] false 1
    fun state name options =>
      let delimiter := (options.value? "delimiter").getD "\t"
      let sep : UInt8 := (Text.octetBytes delimiter).headD 0
      let between := Text.octetBytes ((options.value? "output-delimiter").getD delimiter)
      let others := options.has "complement"
      let chosen (line : List UInt8) : Option (List UInt8) :=
        match options.value? "fields", options.value? "characters", options.value? "bytes" with
        | some list, _, _ =>
          let fields := Text.pieces sep line
          if fields.length = 1 then if options.has "only-delimited" then none else some line
          else some (Text.joined between (inColumns others list fields))
        | _, some list, _ => some (inColumns others list line)
        | _, _, some list => some (inColumns others list line)
        | _, _, _ => some line
      if !options.hasAny ["fields", "characters", "bytes"] then
        misused state name "you must specify a list of bytes, characters, or fields" 1
      else if (options.given.any fun row =>
          ["fields", "characters", "bytes"].contains row.1
            && (columns row.2).any fun range => range.1 = 0) then
        misused state name ((if options.has "fields" then "fields" else "byte/character positions")
          ++ " are numbered from 1") 1
      else overFiles plainly (fun state _ bytes =>
        state.writeBytes 1 (unlines ((lines bytes).filterMap chosen))) name state
          (sources options)

end Emplace.Shell.Tool
