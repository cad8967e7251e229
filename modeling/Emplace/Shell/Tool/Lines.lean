import Emplace.Shell.Regex
import Emplace.Shell.Tool.Files
import Emplace.Shell.Tool.Streams

/-!
The tool that looks for expressions in lines.
-/
namespace Emplace.Shell.Tool

def charsOf (line : List UInt8) : List Char := (Text.octets line).toList

structure Search where
  /-- What is looked for, if anything is. -/
  regex : Option Regex
  fold : Bool
  inverted : Bool
  whole : Bool
  words : Bool

def Search.expression (search : Search) (regex : Regex) : Regex :=
  let regex := if search.words then .both (.apart true) (.both regex (.apart false)) else regex
  if search.whole then .both .front (.both regex .back) else regex

def Search.finds (search : Search) (line : List UInt8) : Bool :=
  (search.regex.any fun regex =>
    (Regex.search search.fold (search.expression regex) (charsOf line)).isSome) != search.inverted

/-- All that an expression stands for in a line, part by part, with where each part begins. -/
def allFound (fold : Bool) (regex : Regex) :
    Nat → List Char → List Char → List (Nat × List Char)
  | 0, _, _ => []
  | fuel + 1, before, after =>
    match Regex.find? fold regex (Regex.depth after) [] before after with
    | none => []
    | some found =>
      if found.text.isEmpty then
        match found.spot.after with
        | [] => []
        | c :: rest => allFound fold regex fuel (c :: found.spot.before) rest
      else (before.length + found.before.length, found.text)
        :: allFound fold regex fuel found.spot.before found.spot.after

def grepFlags : List Flag := [
  ⟨some 'E', "extended-regexp", .nothing⟩, ⟨some 'F', "fixed-strings", .nothing⟩,
  ⟨some 'G', "basic-regexp", .nothing⟩, ⟨some 'P', "perl-regexp", .nothing⟩,
  ⟨some 'e', "regexp", .value⟩, ⟨some 'f', "file", .value⟩,
  ⟨some 'i', "ignore-case", .nothing⟩, ⟨some 'y', "ignore-case", .nothing⟩,
  ⟨some 'v', "invert-match", .nothing⟩, ⟨some 'w', "word-regexp", .nothing⟩,
  ⟨some 'x', "line-regexp", .nothing⟩, ⟨some 'c', "count", .nothing⟩,
  ⟨some 'l', "files-with-matches", .nothing⟩, ⟨some 'L', "files-without-match", .nothing⟩,
  ⟨some 'm', "max-count", .value⟩, ⟨some 'o', "only-matching", .nothing⟩,
  ⟨some 'q', "quiet", .nothing⟩, ⟨none, "silent", .nothing⟩, ⟨some 's', "no-messages", .nothing⟩,
  ⟨some 'n', "line-number", .nothing⟩, ⟨some 'b', "byte-offset", .nothing⟩,
  ⟨some 'H', "with-filename", .nothing⟩, ⟨some 'h', "no-filename", .nothing⟩,
  ⟨some 'r', "recursive", .nothing⟩, ⟨some 'R', "dereference-recursive", .nothing⟩,
  ⟨some 'A', "after-context", .value⟩, ⟨some 'B', "before-context", .value⟩,
  ⟨some 'C', "context", .value⟩, ⟨none, "include", .value⟩, ⟨none, "exclude", .value⟩,
  ⟨none, "color", .perhaps⟩, ⟨none, "colour", .perhaps⟩, ⟨some 'a', "text", .nothing⟩,
  ⟨none, "line-buffered", .nothing⟩]

/-- A line with its number, where it begins, and whether it is what is looked for. -/
structure Row where
  line : List UInt8
  number : Nat
  start : Nat
  hit : Bool

/-- Lines as rows; behind the last find that counts, nothing is looked for. -/
def searched (search : Search) : Nat → Nat → Option Nat → List (List UInt8) → List Row
  | _, _, _, [] => []
  | number, start, left, line :: rest =>
    let hit := left ≠ some 0 && search.finds line
    ⟨line, number, start, hit⟩
      :: searched search (number + 1) (start + line.length + 1)
        (if hit then left.map (· - 1) else left) rest

/-- The rows around those that are looked for, in groups that belong together. -/
def groupsOf (before after : Nat) (rows : List Row) : List (List Row) :=
  let hits := rows.filter Row.hit
  let near (row : Row) : Bool := hits.any fun hit =>
    hit.number ≤ row.number + before && row.number ≤ hit.number + after
  ((rows.filter near).foldl (fun (groups : List (List Row)) row => match groups with
    | (last :: group) :: others =>
      if last.number + 1 = row.number then (row :: last :: group) :: others
      else [row] :: (last :: group) :: others
    | groups => [row] :: groups) []).reverse.map List.reverse

def rowTexts (search : Search) (options : Options) (name : String) (row : Row) : List String :=
  let sep := if row.hit then ":" else "-"
  let named := if name = "" then "" else name ++ sep
  let numbered := if options.has "line-number" then Text.natural row.number ++ sep else ""
  let placed (start : Nat) : String :=
    if options.has "byte-offset" then Text.natural start ++ sep else ""
  if options.has "only-matching" then
    if row.hit = search.inverted then []
    else search.regex.toList.flatMap fun regex =>
      (allFound search.fold (search.expression regex) (row.line.length + 1) []
        (charsOf row.line)).map fun (start, part) =>
          named ++ numbered ++ placed (row.start + start) ++ String.ofList part
  else [named ++ numbered ++ placed row.start ++ Text.octets row.line]

structure Findings where
  state : State
  found : Bool
  failed : Bool
  grouped : Bool

def Findings.file (search : Search) (options : Options) (named : Bool) (findings : Findings)
    (file : String) (bytes : List UInt8) : Findings :=
  let title := if file = "-" then "(standard input)" else file
  let number (word : String) : Option Nat :=
    (options.value? word).bind fun n => Text.number? 10 n.toList
  let around := (number "context").getD 0
  let before := (number "before-context").getD around
  let after := (number "after-context").getD around
  let rows := searched search 1 0 (number "max-count") (lines bytes)
  let hits := rows.filter Row.hit
  let found := !hits.isEmpty
  let findings := { findings with found := findings.found || found }
  let listing := options.last? ["files-with-matches", "files-without-match"]
  let put (texts : List String) : Findings :=
    { findings with state := findings.state.print (String.join (texts.map (· ++ "\n"))) }
  if options.hasAny ["quiet", "silent"] then findings
  else if listing = some "files-with-matches" then put (if found then [title] else [])
  else if listing = some "files-without-match" then put (if found then [] else [title])
  else if options.has "count" then
    put [(if named then title ++ ":" else "") ++ Text.natural hits.length]
  else
    let groups := groupsOf before after rows
    let texts := groups.map fun rows =>
      rows.flatMap (rowTexts search options (if named then title else ""))
    if before = 0 ∧ after = 0 then put texts.flatten
    else
      let apart := texts.intersperse ["--"]
      let apart := if findings.grouped ∧ !apart.isEmpty then ["--"] :: apart else apart
      { put apart.flatten with grouped := findings.grouped || found }

def isWanted (options : Options) (file : String) : Bool :=
  let name := (lastName file).toList
  let fits (word : String) : List (String × String) → Bool := fun given =>
    given.any fun row => row.1 = word && Pattern.fits
      (Pattern.ofMarks (row.2.toList.map fun c => ⟨c, false⟩)) name
  (fits "include" options.given || !options.has "include") && !fits "exclude" options.given

def filesBelow (disk : Disk) (follow : Bool) : Nat → String → List String
  | 0, _ => []
  | depth + 1, file =>
    match entryAt disk (if follow then .target else .self) file with
    | .ok (loc, .directory) =>
      (disk.names loc).flatMap fun name =>
        filesBelow disk follow depth (under file (Text.asOctets name))
    | .ok (_, .file _ _) => [file]
    | _ => []

def grepWith (extended fixed : Bool) : Tool :=
  withOptions grepFlags false 2 fun state name options =>
    let deep := options.hasAny ["recursive", "dereference-recursive"]
    let fromFile (file : String) : List String :=
      match content state file with
      | (.ok bytes, _) => (lines bytes).map Text.octets
      | (.error _, _) => []
    let given := options.given.flatMap fun row =>
      if row.1 = "regexp" then Text.split '\n' row.2
      else if row.1 = "file" then fromFile row.2
      else []
    let (patterns, files) := match options.hasAny ["regexp", "file"], options.operands with
      | false, pattern :: files => (Text.split '\n' pattern, files)
      | _, files => (given, files)
    if patterns.isEmpty ∧ !options.has "file" then
      ((state.tell ("Usage: " ++ name ++ " [OPTION]... PATTERNS [FILE]...")).tell
        ("Try '" ++ name ++ " --help' for more information.")).withStatus 2
    else
      let extended := extended || options.hasAny ["extended-regexp", "perl-regexp"]
      let fixed := fixed || options.has "fixed-strings"
      let expressions := patterns.map fun text =>
        if fixed then Regex.literally text else Regex.ofText extended text
      let search : Search := {
        regex := match expressions with
          | [] => none
          | first :: rest => some (rest.foldl .either first)
        fold := options.has "ignore-case"
        inverted := options.has "invert-match"
        whole := options.has "line-regexp"
        words := options.has "word-regexp" }
      let follow := options.has "dereference-recursive"
      let depth := state.disk.entries.length + 2
      let isDeep (file : String) : Bool := deep && isDirectory state.disk file
      let sources := if !files.isEmpty then files else if deep then ["."] else ["-"]
      let named : Bool := match options.last? ["with-filename", "no-filename"] with
        | some word => word = "with-filename"
        | none => 1 < sources.length || sources.any isDeep
      let below (file : String) : List String :=
        let inner := (((entryAt state.disk .target file).toOption.map Prod.fst).map
          state.disk.names).getD []
        (inner.flatMap fun name =>
          let name := Text.asOctets name
          filesBelow state.disk follow depth
            (if files.isEmpty then name else under file name)).filter (isWanted options)
      let all := sources.flatMap fun file => if isDeep file then below file else [file]
      let look (findings : Findings) (file : String) : Findings :=
        if findings.found ∧ options.hasAny ["quiet", "silent"] then findings
        else match content findings.state file with
        | (.error .isDirectory, state) =>
          let state := if options.has "no-messages" then state
            else complain state name (file ++ ": " ++ Cause.isDirectory.text)
          { findings with state, failed := true }.file search options named file []
        | (.ok bytes, state) => { findings with state }.file search options named file bytes
        | (.error cause, state) =>
          { findings with
            state := if options.has "no-messages" then state
              else complain state name (file ++ ": " ++ cause.text)
            failed := true }
      let findings := all.foldl look ⟨state, false, false, false⟩
      let kinds := ["extended-regexp", "fixed-strings", "basic-regexp", "perl-regexp"].filter
        options.has
      let idle := options.value? "max-count" = some "0"
        || (patterns = [""] && search.inverted && !search.whole && !search.words)
      if 1 < kinds.length then
        (complain state name "conflicting matchers specified").withStatus 2
      else if idle ∧ !options.has "files-without-match" then state.withStatus 1
      else match if fixed then none else patterns.findSome? (Regex.problem? extended) with
      | some problem => (complain state name problem).withStatus 2
      | none => findings.state.withStatus
        (if findings.failed ∧ !(findings.found ∧ options.hasAny ["quiet", "silent"]) then 2
          else if findings.found then 0 else 1)

end Emplace.Shell.Tool
