import Emplace.Shell.Tool

/-!
The tools that make and remove files and give them modes.
-/
namespace Emplace.Shell.Tool

/-- What a tool does for a name: the disk behind it, the lines that it says and its complaints. -/
structure Deed where
  disk : Disk
  said : List String
  complaints : List String

namespace Deed

def done (disk : Disk) : Deed := ⟨disk, [], []⟩

def refused (disk : Disk) (what : String) : Deed := ⟨disk, [], [what]⟩

def saying (lines : List String) (deed : Deed) : Deed := { deed with said := lines ++ deed.said }

def andThen (deed : Deed) (next : Disk → Deed) : Deed :=
  let second := next deed.disk
  ⟨second.disk, deed.said ++ second.said, deed.complaints ++ second.complaints⟩

def forAll {α : Type} (act : Disk → α → Deed) (disk : Disk) (items : List α) : Deed :=
  items.foldl (fun deed item => deed.andThen fun disk => act disk item) (.done disk)

end Deed

/-- Does something for each of some names; what it says comes behind all complaints. -/
def forEach (name : String) (act : Disk → String → Deed) (state : State)
    (files : List String) : State :=
  let deed := Deed.forAll act state.disk files
  let state := { state with disk := deed.disk }
  let state := deed.complaints.foldl (fun state what => complain state name what) state
  if deed.said.isEmpty then state
  else state.print (String.join (deed.said.map (· ++ "\n")))

def reason : Fault → String
  | .system e => e.cause.text
  | fault => fault.message

def locate (disk : Disk) (aim : Disk.Aim) (file : String) : Except Cause Disk.Spot :=
  if file = "" then .error .noEntry else disk.locate aim (path file)

def entryAt (disk : Disk) (aim : Disk.Aim) (file : String) : Except Cause (Location × Entry) :=
  match locate disk aim file with
  | .ok (.present loc entry) => .ok (loc, entry)
  | .ok (.absent _ _) => .error .noEntry
  | .error cause => .error cause

def isDirectory (disk : Disk) (file : String) : Bool :=
  match entryAt disk .target file with
  | .ok (_, .directory) => true
  | _ => false

def isSlashed (file : String) : Bool := file ≠ "/" && Text.endsWith file "/"

/-! ## Directories -/

def make (disk : Disk) (file : String) : Except Cause Disk :=
  match locate disk .self (trimmed file) with
  | .ok (.absent dir last) => .ok (disk.put (dir ++ [last]) .directory)
  | .ok (.present _ _) => .error .exists
  | .error cause => .error cause

/-- The paths on the way to a path, outermost first, each with its last name. -/
def way (file : String) : List (String × String) :=
  let parts := Text.split '/' file
  parts.zipIdx.filterMap fun (part, i) =>
    if part = "" ∨ (parts.drop (i + 1)).all (· = "") then none
    else some (part, Text.join "/" (parts.take (i + 1)))

def made (name : String) (options : Options) (file : String) : List String :=
  if options.has "verbose" then [name ++ ": created directory " ++ quoted file] else []

/-- Makes the directories on a way, as far as they are missing; the first that cannot be made is
the only one that is complained about. -/
def makeWay (name : String) (options : Options) (disk : Disk) :
    List (String × String) → Deed
  | [] => .done disk
  | (part, dir) :: rest =>
    if part = "." then makeWay name options disk rest
    else match if part = ".." then .error .noEntry else make disk dir with
      | .ok disk => (makeWay name options disk rest).saying (made name options dir)
      | .error cause =>
        if isDirectory disk dir then makeWay name options disk rest
        else
          let why := match entryAt disk .target dir with
            | .error .noEntry => cause
            | .error other => other
            | .ok _ => .notDirectory
          .refused disk ("cannot create directory " ++ curly dir ++ ": " ++ why.text)

def makeDirectory (name : String) (options : Options) (disk : Disk) (file : String) : Deed :=
  let parents := options.has "parents"
  let before := makeWay name options disk (if parents then way file else [])
  if !before.complaints.isEmpty then before
  else before.andThen fun disk => match make disk file with
    | .ok disk => (Deed.done disk).saying (made name options file)
    | .error cause =>
      if parents ∧ isDirectory disk file then .done disk
      else .refused disk ("cannot create directory " ++ curly file ++ ": " ++ cause.text)

def mkdir : Tool :=
  withOptions [⟨some 'p', "parents", .nothing⟩, ⟨some 'm', "mode", .value⟩,
    ⟨some 'v', "verbose", .nothing⟩] false 1 fun state name options =>
    if options.operands.isEmpty then misused state name "missing operand" 1
    else forEach name (makeDirectory name options) state options.operands

def withoutDirectory (disk : Disk) (file : String) : Except String Disk :=
  match entryAt disk .self file with
  | .ok (loc, .directory) =>
    match entryAt disk .self (trimmed file) with
    | .ok (_, .link _) => .error "Symbolic link not followed"
    | _ =>
      if lastName file = "." then .error "Invalid argument"
      else if (disk.names loc).isEmpty then .ok (disk.erase loc)
      else .error "Directory not empty"
  | .ok _ => .error Cause.notDirectory.text
  | .error cause => .error cause.text

/-- A path and those above it, as far as they are named. -/
def upwards : Nat → String → List String
  | 0, _ => []
  | fuel + 1, file =>
    let up := above file
    if up = "." ∨ up = "/" then [file] else file :: upwards fuel up

/-- Removes directories one after the other, up to one that cannot be removed. -/
def removeUpwards (name : String) (options : Options) :
    String → Disk → List String → Deed
  | _, disk, [] => .done disk
  | kind, disk, file :: rest =>
    let said := if options.has "verbose" then [name ++ ": removing directory, " ++ quoted file]
      else []
    Deed.saying said <| match withoutDirectory disk file with
      | .ok disk => removeUpwards name options "directory " disk rest
      | .error what =>
        if what = "Directory not empty" ∧ options.has "ignore-fail-on-non-empty" then .done disk
        else
          let kind := if what = Cause.notDirectory.text then "" else kind
          .refused disk ("failed to remove " ++ kind ++ quoted file ++ ": " ++ what)

def rmdir : Tool :=
  withOptions [⟨some 'p', "parents", .nothing⟩, ⟨some 'v', "verbose", .nothing⟩,
    ⟨none, "ignore-fail-on-non-empty", .nothing⟩] false 1 fun state name options =>
    let act (disk : Disk) (file : String) : Deed :=
      removeUpwards name options "" disk
        (if options.has "parents" then file :: (upwards file.length (trimmed file)).drop 1
          else [file])
    if options.operands.isEmpty then misused state name "missing operand" 1
    else forEach name act state options.operands

/-! ## Removal -/

/-- What is said about the removal of what is at a location and below it. -/
def removalLines (disk : Disk) : Nat → Location → String → List String
  | 0, _, _ => []
  | depth + 1, loc, shown =>
    match disk.get? loc with
    | some .directory =>
      (disk.names loc).flatMap (fun name =>
        removalLines disk depth (loc ++ [name]) (under shown (Text.asOctets name)))
      ++ ["removed directory " ++ quoted shown]
    | _ => ["removed " ++ quoted shown]

def remove (options : Options) (disk : Disk) (file : String) : Deed :=
  let told (what : String) : Deed :=
    .refused disk ("cannot remove " ++ quoted file ++ ": " ++ what)
  let force := options.has "force"
  let said (loc : Location) : List String :=
    if options.has "verbose" then removalLines disk (disk.entries.length + 1) loc file else []
  if [".", ".."].contains (lastName file) then
    .refused disk ("refusing to remove '.' or '..' directory: skipping " ++ quoted file)
  else match entryAt disk .self file with
    | .ok (loc, .directory) =>
      if options.has "recursive" then
        match entryAt disk .self (trimmed file) with
        | .ok (_, .link _) =>
          let disk := (disk.names loc).foldl (fun disk name => disk.erase (loc ++ [name])) disk
          if force then .done disk
          else .refused disk ("cannot remove " ++ quoted file ++ ": " ++ Cause.notDirectory.text)
        | _ => (Deed.done (disk.erase loc)).saying (said loc)
      else if !options.has "dir" then told Cause.isDirectory.text
      else if !(disk.names loc).isEmpty then told "Directory not empty"
      else (Deed.done (disk.erase loc)).saying (said loc)
    | .ok (loc, _) => (Deed.done (disk.erase loc)).saying (said loc)
    | .error cause =>
      if force ∧ (cause = .noEntry ∨ cause = .notDirectory) then .done disk else told cause.text

def rm : Tool :=
  withOptions ([⟨some 'r', "recursive", .nothing⟩, ⟨some 'R', "recursive", .nothing⟩,
    ⟨some 'f', "force", .nothing⟩, ⟨some 'd', "dir", .nothing⟩,
    ⟨some 'v', "verbose", .nothing⟩] ++ Flag.plain "iI") false 1 fun state name options =>
    if options.operands.isEmpty ∧ !options.has "force" then
      misused state name "missing operand" 1
    else forEach name (remove options) state options.operands

/-! ## Empty files -/

def makeFile (create : Bool) (disk : Disk) (file : String) : Deed :=
  let told (what : String) : Deed :=
    .refused disk ("cannot touch " ++ quoted file ++ ": " ++ what)
  match entryAt disk .target file with
  | .ok _ => .done disk
  | .error .noEntry =>
    if !create then .done disk
    else if isSlashed file then
      .refused disk ("setting times of " ++ quoted file ++ ": " ++ Cause.noEntry.text)
    else match disk.writeBytes (path file) ByteArray.empty with
      | .ok disk => .done disk
      | .error fault => told (reason fault)
  | .error cause => if create then told cause.text else .done disk

def touch : Tool :=
  withOptions ([⟨some 'c', "no-create", .nothing⟩, ⟨some 'd', "date", .value⟩,
    ⟨some 'r', "reference", .value⟩, ⟨some 't', "t", .value⟩,
    ⟨some 'h', "no-dereference", .nothing⟩] ++ Flag.plain "afm") false 1
    fun state name options =>
      if options.operands.isEmpty then misused state name "missing file operand" 1
      else forEach name (makeFile (!options.has "no-create")) state options.operands

def mkfifo : Tool :=
  withOptions [⟨some 'm', "mode", .value⟩] false 1 fun state name options =>
    let act (disk : Disk) (file : String) : Deed :=
      let told (what : String) : Deed :=
        .refused disk ("cannot create fifo " ++ quoted file ++ ": " ++ what)
      match locate disk .self file with
      | .ok (.absent dir last) => .done (disk.put (dir ++ [last]) .pipe)
      | .ok (.present _ _) => told Cause.exists.text
      | .error cause => told cause.text
    if options.operands.isEmpty then misused state name "missing operand" 1
    else forEach name act state options.operands

/-! ## Modes -/

/-- Whether a mode leaves a file executable that was so before or not. -/
def executableIn (mode : String) (before : Bool) : Option Bool :=
  if !mode.isEmpty ∧ mode.toList.all Char.isDigit then
    (Text.number? 8 mode.toList).map fun n => n &&& 73 ≠ 0
  else
    (Text.split ',' mode).foldlM (fun before change =>
      let rest := change.toList.dropWhile ['u', 'g', 'o', 'a'].contains
      match rest with
      | sign :: letters =>
        if !letters.all ['r', 'w', 'x', 'X', 's', 't'].contains then none
        else
          let counts := letters.contains 'x' || (letters.contains 'X' && before)
          match sign with
          | '+' => some (before || counts)
          | '-' => some (before && !counts)
          | '=' => some counts
          | _ => none
      | [] => none) before

def withMode (mode : String) (disk : Disk) (rows : List (Location × Entry)) : Disk :=
  rows.foldl (fun disk (loc, entry) => match entry with
    | .file bytes before => disk.put loc (.file bytes ((executableIn mode before).getD before))
    | _ => disk) disk

def chmod : Tool := fun state name arguments =>
  let flags : List Flag :=
    [⟨some 'R', "recursive", .nothing⟩, ⟨some 'f', "quiet", .nothing⟩] ++ Flag.plain "cv"
  let removing := arguments.find? fun argument =>
    match argument.toList with
    | '-' :: c :: _ => ['r', 'w', 'x', 'X', 's', 't'].contains c
    | _ => false
  let arguments := match removing with
    | some mode => "--" :: mode :: arguments.filter (· ≠ mode)
    | none => arguments
  let act (options : Options) (mode : String) (disk : Disk) (file : String) :
      Deed :=
    match entryAt disk .target file with
    | .ok (loc, entry) =>
      let below := if options.has "recursive" then
          disk.entries.filter fun row => loc.isPrefixOf row.1
        else []
      .done (withMode mode disk ((loc, entry) :: below))
    | .error cause => .refused disk ("cannot access " ++ quoted file ++ ": " ++ cause.text)
  withOptions flags false 1 (fun state name options =>
    match options.operands with
    | [] => misused state name "missing operand" 1
    | [mode] => misused state name ("missing operand after " ++ curly mode) 1
    | mode :: files =>
      if (executableIn mode false).isNone then
        misused state name ("invalid mode: " ++ curly mode) 1
      else forEach name (act options mode) state files) state name arguments

end Emplace.Shell.Tool
