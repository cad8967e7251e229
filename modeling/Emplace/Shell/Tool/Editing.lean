import Emplace.Shell.Tool.Editing.Reading
import Emplace.Shell.Tool.Editing.Session

/-!
The tool that edits lines by a script.
-/
namespace Emplace.Shell.Tool

open Editing in
def storeFiles (state : State) (session : Session) : State :=
  session.files.foldl (fun state (file, texts) =>
    let bytes := Text.octetBytes (String.ofList texts.reverse.flatten)
    match state.disk.writeBytes (path file) (ByteArray.mk bytes.toArray) with
    | .ok disk => { state with disk }
    | .error _ => state) state

/-- The bytes of a file for an editor, or none with a complaint. -/
def editable (name : String) (state : State) (file : String) : State × Option (List UInt8) :=
  match content state file with
  | (.ok bytes, state) => (state, some bytes)
  | (.error .isDirectory, state) =>
    (complain state name ("couldn't edit " ++ file ++ ": not a regular file"), none)
  | (.error cause, state) =>
    ((complain state name ("can't read " ++ file ++ ": " ++ cause.text)).withStatus 2, none)

def backupOf (suffix file : String) : String :=
  let name := if suffix.toList.contains '*' then suffix.replace "*" (lastName file)
    else lastName file ++ suffix
  if file.toList.contains '/' ∧ !name.toList.contains '/' then under (above file) name else name

open Editing in
/-- Edits a file in its place, or one of several files that count as separate. -/
def editSeparate (name : String) (suffix : Option String) (row : State × Session)
    (file : String) : State × Session :=
  let (state, session) := row
  if session.closed.isSome then row
  else match editable name state file, suffix with
    | (state, none), _ => (state, session)
    | (state, some bytes), none =>
      (state, session.onContents [bytes])
    | (state, some bytes), some suffix =>
      let session := { session with out := [], pending := false }.onContents [bytes]
      let store (state : State) (file : String) (bytes : List UInt8) : State :=
        match state.disk.writeBytes (path file) (ByteArray.mk bytes.toArray) with
        | .ok disk => { state with disk }
        | .error fault => (complain state name fault.message).withStatus 4
      let state := if suffix = "" then state else store state (backupOf suffix file) bytes
      (store state file session.written, { session with out := [] })

open Editing in
def editTogether (name : String) (session : Session) (state : State) (files : List String) :
    State × Session :=
  let (state, contents) := files.foldl (fun (row : State × List (List UInt8)) file =>
    match editable name row.1 file with
    | (state, some bytes) => (state, bytes :: row.2)
    | (state, none) => (state, row.2)) (state, [])
  (state, session.onContents contents.reverse)

open Editing in
def sed : Tool :=
  withOptions ([⟨some 'n', "quiet", .nothing⟩, ⟨none, "silent", .nothing⟩,
    ⟨some 'e', "expression", .value⟩, ⟨some 'f', "file", .value⟩,
    ⟨some 'E', "regexp-extended", .nothing⟩, ⟨some 'r', "regexp-extended", .nothing⟩,
    ⟨some 'i', "in-place", .perhaps⟩, ⟨some 's', "separate", .nothing⟩,
    ⟨some 'z', "null-data", .nothing⟩] ++ Flag.plain "u") false 1 fun state name options =>
    let fromFile (file : String) : String :=
      match content state file with
      | (.ok bytes, _) => Text.octets bytes
      | (.error _, _) => ""
    let given := options.given.filterMap fun row =>
      if row.1 = "expression" then some row.2
      else if row.1 = "file" then some (fromFile row.2)
      else none
    let (scripts, files) := match given, options.operands with
      | [], script :: files => ([script], files)
      | given, files => (given, files)
    let script := (Text.join "\n" scripts).toList
    if scripts.isEmpty then
      let usage := "sed [OPTION]... \x7bscript-only-if-no-other-script\x7d [input-file]..."
      (state.tell ("Usage: " ++ usage)).withStatus 1
    else match commands (options.has "regexp-extended") (script.length + 2) 0 script with
      | .error (what, left) =>
        complain state name ("-e expression #1, char " ++ Text.natural (script.length - left)
          ++ ": " ++ what)
      | .ok (_, _ + 1) => complain state name "-e expression #1, char 0: unmatched \x60\x7b'"
      | .ok (commands, 0) =>
        match lost? commands with
        | some label => complain state name ("can't find label for jump to \x60" ++ label ++ "'")
        | none =>
          let start : Session := {
            script := commands.toArray
            quiet := options.hasAny ["quiet", "silent"]
            mark := if options.has "null-data" then '\x00' else '\n'
            content := fun file => match content state file with
              | (.ok bytes, _) => (Text.octets bytes).toList
              | (.error _, _) => []
            input := [], number := 0, line := [], ended := true
            aside := [], asideEnded := true, out := [], pending := false, later := []
            replaced := false, ranges := [], recent := none
            files := ((written commands).filter (· ≠ "/dev/stdout")).map fun file => (file, [])
            closed := none, lost := false }
          let sources := if files.isEmpty then ["-"] else files
          let suffix := options.value? "in-place"
          let (state, session) :=
            if suffix.isSome ∨ options.has "separate" then
              sources.foldl (editSeparate name suffix) (state, start)
            else editTogether name start state sources
          let state := storeFiles (state.writeBytes 1 session.written) session
          let state := if !session.lost then state
            else complain state name "-e expression #1, char 0: no previous regular expression"
          match session.closed with
          | some (status + 1) => state.withStatus (status + 1)
          | _ => state

end Emplace.Shell.Tool
