import Emplace.Disk.Canonical
import Emplace.Shell.Printf
import Emplace.Shell.Tool
import Emplace.Sorting

/-!
The tools that show names, texts and what directories hold.
-/
namespace Emplace.Shell.Tool

/-- A line for each of some texts; `zero` ends them otherwise. -/
def printAll (state : State) (zero : Bool) (texts : List String) : State :=
  state.print (String.join (texts.map (· ++ if zero then "\x00" else "\n")))

def basename : Tool :=
  withOptions [⟨some 'a', "multiple", .nothing⟩, ⟨some 's', "suffix", .value⟩,
    ⟨some 'z', "zero", .nothing⟩] true 1 fun state name options =>
      let without (suffix file : String) : String :=
        let last := lastName file
        if suffix ≠ "" ∧ last ≠ suffix then Text.dropTail last suffix else last
      let several := options.hasAny ["multiple", "suffix"]
      let zero := options.has "zero"
      match several, options.operands with
      | _, [] => misused state name "missing operand" 1
      | true, files =>
        printAll state zero (files.map (without ((options.value? "suffix").getD "")))
      | false, [file] => printAll state zero [without "" file]
      | false, [file, suffix] => printAll state zero [without suffix file]
      | false, _ :: _ :: extra :: _ => misused state name ("extra operand " ++ curly extra) 1

def dirname : Tool :=
  withOptions [⟨some 'z', "zero", .nothing⟩] false 1 fun state name options =>
    if options.operands.isEmpty then misused state name "missing operand" 1
    else printAll state (options.has "zero") (options.operands.map above)

def located (loc : Location) : String := Text.asOctets (Disk.pathOf loc).text

def fullPath? (strict : Bool) (state : State) (file : String) : Option String :=
  if file = "" then none
  else match state.disk.canonical (path file), state.locate .target file with
    | .ok loc, .ok (.present _ _) => some (located loc)
    | .ok loc, .ok (.absent _ _) => if strict then none else some (located loc)
    | _, _ => none

def readlink : Tool :=
  withOptions [⟨some 'f', "canonicalize", .nothing⟩,
    ⟨some 'e', "canonicalize-existing", .nothing⟩, ⟨some 'm', "canonicalize-missing", .nothing⟩,
    ⟨some 'n', "no-newline", .nothing⟩, ⟨some 'q', "quiet", .nothing⟩,
    ⟨some 's', "silent", .nothing⟩, ⟨some 'z', "zero", .nothing⟩] false 1
    fun state name options =>
      let shown (file : String) : Option String :=
        if options.has "canonicalize-existing" then fullPath? true state file
        else if options.hasAny ["canonicalize", "canonicalize-missing"] then
          fullPath? false state file
        else match state.locate .self file with
          | .ok (.present _ (.link target)) => some (Text.asOctets target)
          | _ => none
      let put (state : State) (file : String) : State :=
        match shown file with
        | none => state.withStatus 1
        | some text =>
          state.print (text ++ if options.has "no-newline" ∧ options.operands.length = 1 then ""
            else "\n")
      if options.operands.isEmpty then misused state name "missing operand" 1
      else options.operands.foldl put state

def realpath : Tool :=
  withOptions [⟨some 'e', "canonicalize-existing", .nothing⟩,
    ⟨some 'm', "canonicalize-missing", .nothing⟩, ⟨some 's', "strip", .nothing⟩,
    ⟨some 'q', "quiet", .nothing⟩] false 1 fun state name options =>
      let put (state : State) (file : String) : State :=
        match fullPath? (options.has "canonicalize-existing") state file with
        | some text => state.print (text ++ "\n")
        | none => complain state name (plain file ++ ": " ++ Cause.noEntry.text)
      if options.operands.isEmpty then misused state name "missing operand" 1
      else options.operands.foldl put state

def pwd : Tool := fun state _ _ =>
  (state.print (located state.disk.cwd ++ "\n")).withStatus 0

/-- The text of arguments; the first ones may be flags. -/
def echoed : Bool → Bool → List String → List Char × Bool
  | lineEnd, _, [] => ([], lineEnd)
  | lineEnd, escapes, first :: rest =>
    match first.toList with
    | '-' :: c :: more =>
      if (c :: more).all ['n', 'e', 'E'].contains then
        let last := ((c :: more).filter (· ≠ 'n')).getLast?
        echoed (lineEnd && !(c :: more).contains 'n') (last.elim escapes (· = 'e')) rest
      else text lineEnd escapes (first :: rest)
    | _ => text lineEnd escapes (first :: rest)
where
  text (lineEnd escapes : Bool) (words : List String) : List Char × Bool :=
    let all := (Text.join " " words).toList
    if escapes then
      let (chars, ended) := Printf.unescaped (all.length + 1) all
      (chars, lineEnd && !ended)
    else (all, lineEnd)

def echo : Tool := fun state _ arguments =>
  let (chars, lineEnd) := echoed true false arguments
  (state.print (String.ofList (chars ++ if lineEnd then ['\n'] else []))).withStatus 0

def whoami : Tool := fun state _ _ => (state.print "root\n").withStatus 0

def environment (state : State) : List (String × String) :=
  (state.bindings.filter Variable.exported).filterMap fun v => v.value.map fun value =>
    (v.name, value)

def printenv : Tool := fun state _ arguments =>
  if arguments.isEmpty then
    printAll (state.withStatus 0) false ((environment state).map fun row => row.1 ++ "=" ++ row.2)
  else
    let found := arguments.filterMap fun name => (environment state).lookup name
    printAll (state.withStatus (if found.length = arguments.length then 0 else 1)) false found

/-! ## Directories -/

def marked (state : State) (options : Options) (dir file : String) : String :=
  let place := if dir = "" then file else under dir file
  let mark := match state.locate .self place with
    | .ok (.present _ .directory) => if options.hasAny ["classify", "p"] then "/" else ""
    | .ok (.present _ (.link _)) => if options.has "classify" then "@" else ""
    | .ok (.present _ .pipe) => if options.has "classify" then "|" else ""
    | .ok (.present _ (.file _ true)) => if options.has "classify" then "*" else ""
    | _ => ""
  file ++ mark

def visible (state : State) (options : Options) (loc : Location) : List String :=
  let names := Sorting.sortBy id ((state.disk.names loc).map Text.asOctets)
  let names := if options.has "all" then "." :: ".." :: names
    else if options.has "almost-all" then names
    else names.filter fun name => !Text.startsWith name "."
  if options.has "reverse" then names.reverse else names

/-- The directories to show, with those in them where they are wanted too. -/
def listings (state : State) (options : Options) : Nat → List (String × Location) →
    List (String × Location)
  | 0, _ => []
  | _, [] => []
  | fuel + 1, (file, loc) :: rest =>
    if options.has "recursive" then
      let inner := (visible state options loc).filterMap fun name =>
        let below := loc ++ [Text.ofOctets name]
        if name ≠ "." ∧ name ≠ ".." ∧ state.disk.get? below = some .directory then
          some (under file name, below)
        else none
      (file, loc) :: listings state options fuel (inner ++ rest)
    else (file, loc) :: listings state options fuel rest

def ls : Tool :=
  withOptions ([⟨some 'a', "all", .nothing⟩, ⟨some 'A', "almost-all", .nothing⟩,
    ⟨some 'd', "directory", .nothing⟩, ⟨some 'F', "classify", .perhaps⟩,
    ⟨some 'r', "reverse", .nothing⟩, ⟨some 'R', "recursive", .nothing⟩]
    ++ Flag.plain "1pCLUx") false 2 fun state name options =>
      let files := if options.operands.isEmpty then ["."] else options.operands
      let files := Sorting.sortBy id files
      let look (row : State × List String × List (String × Location)) (file : String) :=
        let (state, plain, dirs) := row
        match state.locate (if options.has "directory" then .self else .target) file,
            state.locate .self file with
        | .ok (.present loc .directory), _ =>
          if options.has "directory" then (state, plain ++ [file], dirs)
          else (state, plain, dirs ++ [(file, loc)])
        | .ok (.present _ _), _ => (state, plain ++ [file], dirs)
        | _, .ok (.present _ (.link _)) => (state, plain ++ [file], dirs)
        | .error cause, _ =>
          ((complain state name ("cannot access " ++ quoted file ++ ": " ++ cause.text)).withStatus
            2, plain, dirs)
        | _, _ =>
          ((complain state name ("cannot access " ++ quoted file ++ ": "
            ++ Cause.noEntry.text)).withStatus 2, plain, dirs)
      let (state, plain, dirs) := files.foldl look (state, [], [])
      let state := printAll state false (plain.map (marked state options ""))
      let titled := options.has "recursive" || 1 < files.length
      let listOne (row : State × Bool) (dir : String × Location) : State × Bool :=
        let (state, begun) := row
        let state := if titled then
            state.print ((if begun then "\n" else "") ++ dir.1 ++ ":\n")
          else state
        (printAll state false ((visible state options dir.2).map (marked state options dir.1)),
          true)
      let all := listings state options (state.disk.entries.length + dirs.length + 1) dirs
      (all.foldl listOne (state, !plain.isEmpty)).1

end Emplace.Shell.Tool
