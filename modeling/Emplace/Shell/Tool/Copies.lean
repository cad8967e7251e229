import Emplace.Shell.Tool.Files

/-!
The tools that copy, move and link files.
-/
namespace Emplace.Shell.Tool

/-- What is at a location and below it, with the names from there on. -/
def subtree (disk : Disk) (loc : Location) : List (Location × Entry) :=
  disk.entries.filterMap fun (key, entry) =>
    if loc.isPrefixOf key then some (key.drop loc.length, entry) else none

def planted (disk : Disk) (loc : Location) (rows : List (Location × Entry)) : Disk :=
  rows.foldl (fun disk (below, entry) => disk.put (loc ++ below) entry) disk

/-- Where something of a name goes: into a directory under its own last name, or to the name
itself. -/
def destination (disk : Disk) (alone : Bool) (target file : String) : String :=
  if !alone ∧ isDirectory disk target then under target (lastName file) else target

/-- Does something with several files and the last of them, or a directory that an option names. -/
def toTarget (act : String → Disk → String → Deed) (options : Options) (state : State)
    (name : String) : State :=
  let alone := options.has "no-target-directory"
  match options.value? "target-directory", options.operands.reverse with
  | some _, [] => misused state name "missing file operand" 1
  | some target, files =>
    if isDirectory state.disk target then forEach name (act target) state files.reverse
    else complain state name ("target directory " ++ quoted target ++ ": "
      ++ Cause.noEntry.text)
  | none, [] => misused state name "missing file operand" 1
  | none, [file] =>
    misused state name ("missing destination file operand after " ++ quoted file) 1
  | none, [target, file] => forEach name (act target) state [file]
  | none, target :: files =>
    if alone then
      misused state name ("extra operand " ++ curly ((files.reverse.drop 1).headD target)) 1
    else if isDirectory state.disk target then forEach name (act target) state files.reverse
    else
      let why := match entryAt state.disk .target target with
        | .ok _ => Cause.notDirectory
        | .error cause => cause
      complain state name ("target " ++ quoted target ++ ": " ++ why.text)

def targetFlags : List Flag := [
  ⟨some 't', "target-directory", .value⟩, ⟨some 'T', "no-target-directory", .nothing⟩,
  ⟨some 'f', "force", .nothing⟩, ⟨some 'v', "verbose", .nothing⟩,
  ⟨some 'i', "interactive", .nothing⟩]

/-! ## Copies -/

structure Copying where
  deep : Bool
  follow : Bool
  followBelow : Bool
  keep : Bool
  alone : Bool
  /-- Whether a copy lies below its target as the file lies below the current directory. -/
  parents : Bool
  symbolic : Bool
  verbose : Bool

namespace Copying

def said (how : Copying) (file place : String) : List String :=
  if how.verbose then [quoted file ++ " -> " ++ quoted place] else []

def copyFile (how : Copying) (disk : Disk) (loc : Location) (bytes : ByteArray)
    (executable : Bool) (file place : String) : Deed :=
  let denied (cause : Cause) : Deed :=
    .refused disk ("cannot create regular file " ++ quoted place ++ ": " ++ cause.text)
  match locate disk .target place, locate disk .writing place with
  | .error .notDirectory, _ =>
    .refused disk ("cannot stat " ++ quoted place ++ ": " ++ Cause.notDirectory.text)
  | _, .ok (.present there (.file _ kept)) =>
    if there = loc then
      .refused disk (quoted file ++ " and " ++ quoted place ++ " are the same file")
    else if how.keep then .done disk
    else (Deed.done (disk.put there (.file bytes kept))).saying (how.said file place)
  | _, .ok (.present _ .directory) =>
    .refused disk ("cannot overwrite directory " ++ quoted place ++ " with non-directory")
  | _, .ok (.present _ _) => .done disk
  | _, .ok (.absent dir last) =>
    match entryAt disk .self place with
    | .ok (_, .link _) =>
      .refused disk ("not writing through dangling symlink " ++ quoted place)
    | _ =>
      (Deed.done (disk.put (dir ++ [last]) (.file bytes executable))).saying (how.said file place)
  | _, .error cause => denied (if cause = .isDirectory then .notDirectory else cause)

def copySpecial (how : Copying) (disk : Disk) (entry : Entry) (file place : String) : Deed :=
  let put (there : Location) : Deed :=
    (Deed.done (disk.put there entry)).saying (how.said file place)
  match locate disk .self place with
  | .ok (.absent dir last) => put (dir ++ [last])
  | .ok (.present _ .directory) =>
    .refused disk ("cannot overwrite directory " ++ quoted place ++ " with non-directory")
  | .ok (.present there _) => if how.keep then .done disk else put there
  | .error cause =>
    .refused disk ("cannot create regular file " ++ quoted place ++ ": " ++ cause.text)

/-- Copies what is at a location to a place, with what is below it. -/
def copyEntry (how : Copying) : Nat → Disk → Location → Entry → String → String → Deed
  | 0, disk, _, _, _, _ => .done disk
  | depth + 1, disk, loc, entry, file, place =>
    let itself : String :=
      "cannot copy a directory, " ++ quoted file ++ ", into itself, " ++ quoted place
    let inside (whole : Disk) (there : Location) (disk : Disk) : Deed :=
      Deed.forAll (fun disk name =>
        let inner := under file (Text.asOctets name)
        let aim : Disk.Aim := if how.followBelow then .target else .self
        if loc ++ [name] = there then .done disk
        else match entryAt whole aim inner with
          | .ok (loc, entry) =>
            copyEntry how depth disk loc entry inner (under place (Text.asOctets name))
          | .error cause =>
            .refused disk ("cannot stat " ++ quoted inner ++ ": " ++ cause.text))
        disk (whole.names loc)
    match entry with
    | .directory =>
      if !how.deep then .refused disk ("-r not specified; omitting directory " ++ quoted file)
      else match locate disk .self place with
        | .ok (.absent dir last) =>
          let there := dir ++ [last]
          let deed := (inside disk there (disk.put there .directory)).saying (how.said file place)
          if loc.isPrefixOf dir then deed.andThen fun disk => .refused disk itself else deed
        | .ok (.present there .directory) =>
          if loc.isPrefixOf there then .refused disk itself else inside disk there disk
        | .ok (.present _ _) =>
          .refused disk ("cannot overwrite non-directory " ++ quoted place ++ " with directory "
            ++ quoted file)
        | .error cause =>
          .refused disk ("cannot create directory " ++ quoted place ++ ": " ++ cause.text)
    | .file bytes executable =>
      if how.symbolic then copySpecial how disk (.link (Text.ofOctets file)) file place
      else copyFile how disk loc bytes executable file place
    | entry => copySpecial how disk entry file place

def copy (how : Copying) (target : String) (disk : Disk) (file : String) : Deed :=
  let place := if how.parents then under target file else destination disk how.alone target file
  let before := makeWay "" ⟨[], []⟩ disk (if how.parents then way place else [])
  match entryAt before.disk (if how.follow then .target else .self) file with
  | .ok (loc, entry) =>
    copyEntry how (before.disk.entries.length + 1) before.disk loc entry file place
  | .error cause => .refused disk ("cannot stat " ++ quoted file ++ ": " ++ cause.text)

end Copying

def cp : Tool :=
  withOptions (targetFlags ++ [⟨some 'r', "recursive", .nothing⟩,
    ⟨some 'R', "recursive", .nothing⟩, ⟨some 'a', "archive", .nothing⟩,
    ⟨some 'L', "dereference", .nothing⟩, ⟨some 'P', "no-dereference", .nothing⟩,
    ⟨some 'H', "H", .nothing⟩, ⟨some 's', "symbolic-link", .nothing⟩,
    ⟨some 'n', "no-clobber", .nothing⟩, ⟨some 'u', "update", .nothing⟩,
    ⟨none, "parents", .nothing⟩, ⟨none, "preserve", .perhaps⟩] ++ Flag.plain "dplx") false 1
    fun state name options =>
      let deep := options.hasAny ["recursive", "archive"]
      let how : Copying := {
        deep
        follow := options.hasAny ["dereference", "H"]
          || !(deep || options.hasAny ["no-dereference", "d"])
        followBelow := options.has "dereference"
        keep := options.has "no-clobber"
        alone := options.has "no-target-directory"
        parents := options.has "parents"
        symbolic := options.has "symbolic-link"
        verbose := options.has "verbose" }
      let target := (options.value? "target-directory").getD (options.operands.getLastD "")
      if how.parents ∧ 1 < options.operands.length ∧ !isDirectory state.disk target then
        misused state name "with --parents, the destination must be a directory" 1
      else toTarget how.copy options state name

/-! ## Moves -/

def move (keep alone verbose : Bool) (target : String) (disk : Disk) (file : String) : Deed :=
  let place := destination disk alone target file
  let told (what : String) : Deed := .refused disk what
  let stuck (why : String) : Deed :=
    told ("cannot move " ++ quoted file ++ " to " ++ quoted place ++ ": " ++ why)
  let same : Deed := told (quoted file ++ " and " ++ quoted place ++ " are the same file")
  match entryAt disk .self file, entryAt disk .self (trimmed file) with
  | .error cause, _ => told ("cannot stat " ++ quoted file ++ ": " ++ cause.text)
  | _, .error cause => told ("cannot stat " ++ quoted file ++ ": " ++ cause.text)
  | .ok _, .ok (loc, entry) =>
    let rows := ([], entry) :: (subtree disk loc).filter fun row => row.1 ≠ []
    let put (there : Location) : Deed :=
      (Deed.done (planted (disk.erase loc) there rows)).saying
        (if verbose then ["renamed " ++ quoted file ++ " -> " ++ quoted place] else [])
    let isLink := entry matches .link _
    if isSlashed file ∧ isLink then stuck Cause.notDirectory.text
    else match locate disk .self (trimmed place) with
    | .error cause => stuck cause.text
    | .ok (.absent dir last) =>
      if isSlashed place ∧ !(entry matches .directory) then stuck Cause.notDirectory.text
      else if loc.isPrefixOf dir then
        told ("cannot move " ++ quoted file ++ " to a subdirectory of itself, " ++ quoted place)
      else put (dir ++ [last])
    | .ok (.present there old) =>
      let aim := (entryAt disk .target file).toOption.map Prod.fst
      if there = loc ∨ (isLink ∧ aim = some there) then same
      else if keep then .done disk
      else match entry, old with
        | .directory, .directory =>
          if (disk.names there).isEmpty then put there else stuck "Directory not empty"
        | .directory, _ =>
          told ("cannot overwrite non-directory " ++ quoted place ++ " with directory "
            ++ quoted file)
        | _, .directory =>
          told ("cannot overwrite directory " ++ quoted place ++ " with non-directory")
        | _, _ => put there

def mv : Tool :=
  withOptions (targetFlags ++ [⟨some 'n', "no-clobber", .nothing⟩,
    ⟨some 'u', "update", .nothing⟩]) false 1 fun state name options =>
    toTarget (move (options.has "no-clobber") (options.has "no-target-directory")
      (options.has "verbose")) options state name

/-! ## Links -/

def relativeWay : Location → Location → Location
  | a :: dir, b :: loc =>
    if a = b then relativeWay dir loc else (a :: dir).map (fun _ => "..") ++ b :: loc
  | dir, loc => dir.map (fun _ => "..") ++ loc

def relativeText (disk : Disk) (dir : Location) (file : String) : String :=
  match locate disk .target file with
  | .ok spot =>
    let loc := match spot with
      | .present loc _ => loc
      | .absent dir last => dir ++ [last]
    match relativeWay dir loc with
    | [] => "."
    | names => Text.join "/" names
  | .error _ => Text.ofOctets file

def linkEntry (options : Options) (disk : Disk) (dir : Location) (file : String) :
    Except String Entry :=
  if options.has "symbolic" then
    .ok (.link (if options.has "relative" then relativeText disk dir file
      else Text.ofOctets file))
  else match entryAt disk .self file with
    | .ok (_, .directory) => .error (plain file ++ ": hard link not allowed for directory")
    | .ok (_, entry) => .ok entry
    | .error cause => .error ("failed to access " ++ quoted file ++ ": " ++ cause.text)

def link (options : Options) (target : String) (disk : Disk) (file : String) : Deed :=
  let symbolic := options.has "symbolic"
  let isLink := entryAt disk .self target matches .ok (_, .link _)
  let whole := options.has "no-target-directory" || (options.has "no-dereference" && isLink)
  let place := destination disk whole target file
  let told (cause : Cause) : Deed :=
    .refused disk ("failed to create " ++ (if symbolic then "symbolic" else "hard") ++ " link "
      ++ quoted place
      ++ (if symbolic || cause = .exists then "" else " => " ++ quoted file) ++ ": " ++ cause.text)
  let put (there : Location) (entry : Entry) : Deed :=
    (Deed.done (disk.put there entry)).saying
      (if !options.has "verbose" then []
        else [quoted place ++ (if symbolic then " -> " else " => ") ++ quoted file])
  match locate disk .self place with
  | .error cause =>
    match linkEntry options disk [] file with
    | .error what => .refused disk what
    | .ok _ => told cause
  | .ok (.absent dir last) =>
    match linkEntry options disk dir file with
    | .error what => .refused disk what
    | .ok entry => put (dir ++ [last]) entry
  | .ok (.present there old) =>
    match linkEntry options disk there.dropLast file with
    | .error what => .refused disk what
    | .ok entry =>
      if old matches .directory then told .exists
      else if !options.has "force" then told .exists
      else if !symbolic ∧ (entryAt disk .self file).toOption.map Prod.fst = some there then
        .refused disk (quoted file ++ " and " ++ quoted place ++ " are the same file")
      else put there entry

def ln : Tool :=
  withOptions (targetFlags ++ [⟨some 's', "symbolic", .nothing⟩,
    ⟨some 'r', "relative", .nothing⟩, ⟨some 'n', "no-dereference", .nothing⟩]) false 1
    fun state name options =>
      match options.operands with
      | [file] =>
        if options.value? "target-directory" = none then
          forEach name (link options (lastName file)) state [file]
        else toTarget (link options) options state name
      | _ => toTarget (link options) options state name

end Emplace.Shell.Tool
