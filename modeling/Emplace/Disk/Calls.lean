import Emplace.Disk.Lookup

/-!
The calls that a run makes on its files. A call that fails leaves the disk as it was; one that
succeeds changes a single entry.
-/
namespace Emplace.Disk

def hasNull (path : Path) : Bool :=
  path.names.any fun name => name.toList.contains '\x00'

def answer {α : Type} (path : Path) : Except Cause α → Except Fault α
  | .ok value => if hasNull path then .error .nullByte else .ok value
  | .error cause =>
    if hasNull path then .error .nullByte else .error (.system ⟨cause, path.text⟩)

/-- Whether a refused look at a path only means that nothing is there. -/
def meansAbsent : Cause → Bool
  | .noEntry => true
  | .notDirectory => true
  | .tooManyLinks => true
  | _ => false

def holds (disk : Disk) (test : Entry → Bool) (path : Path) : Except Fault Bool :=
  if hasNull path then .ok false
  else match disk.status path with
    | .ok entry => .ok (test entry)
    | .error cause =>
      if meansAbsent cause then .ok false else .error (.system ⟨cause, path.text⟩)

def isDirectory (disk : Disk) (path : Path) : Except Fault Bool :=
  disk.holds (fun entry => entry matches .directory) path

def isFile (disk : Disk) (path : Path) : Except Fault Bool :=
  disk.holds (fun entry => entry matches .file _ _) path

def exists? (disk : Disk) (path : Path) : Except Fault Bool :=
  disk.holds (fun _ => true) path

def makeDirectory (disk : Disk) (path : Path) : Except Fault Disk :=
  answer path <|
    match disk.locate .self path with
    | .error cause => .error cause
    | .ok (.present _ _) => .error .exists
    | .ok (.absent dir name) => .ok (disk.put (dir ++ [name]) .directory)

def readBytes (disk : Disk) (path : Path) : Except Fault ByteArray :=
  answer path <|
    match disk.status path with
    | .error cause => .error cause
    | .ok (.file bytes _) => .ok bytes
    | .ok .directory => .error .isDirectory
    | .ok _ => .error .blocked

/-- Puts bytes in the place of those of the file that a path leads to, which is made if it is not
there. -/
def writeBytes (disk : Disk) (path : Path) (bytes : ByteArray) : Except Fault Disk :=
  answer path <|
    match disk.locate .writing path with
    | .error cause => .error cause
    | .ok (.present loc (.file _ executable)) => .ok (disk.put loc (.file bytes executable))
    | .ok (.present _ .directory) => .error .isDirectory
    | .ok (.present _ _) => .error .blocked
    | .ok (.absent dir name) => .ok (disk.put (dir ++ [name]) (.file bytes false))

def list (disk : Disk) (path : Path) : Except Cause (Location × List String) :=
  match disk.locate .target path with
  | .error cause => .error cause
  | .ok (.present loc .directory) => .ok (loc, disk.names loc)
  | .ok (.present _ _) => .error .notDirectory
  | .ok (.absent _ _) => .error .noEntry

/-- Asks again for a directory that could not be made: one that is there is as good. -/
def acceptPresent (disk : Disk) (path : Path) (fault : Fault) : Disk × Except Fault Unit :=
  match disk.isDirectory path with
  | .error other => (disk, .error other)
  | .ok true => (disk, .ok ())
  | .ok false => (disk, .error fault)

/-- Makes a directory whose parent is there, unless it is there itself. -/
def ensureLast (disk : Disk) (path : Path) : Disk × Except Fault Unit :=
  match disk.makeDirectory path with
  | .ok made => (made, .ok ())
  | .error (.system ⟨.noEntry, name⟩) => (disk, .error (.system ⟨.noEntry, name⟩))
  | .error (.system e) => disk.acceptPresent path (.system e)
  | .error fault => (disk, .error fault)

/-- Makes a directory and those above it that are missing; the names come last name first. -/
def ensureNames (disk : Disk) (anchor : Anchor) : List String → Disk × Except Fault Unit
  | [] => disk.ensureLast ⟨anchor, []⟩
  | name :: above =>
    let path : Path := ⟨anchor, (name :: above).reverse⟩
    match disk.makeDirectory path with
    | .ok made => (made, .ok ())
    | .error (.system ⟨.noEntry, _⟩) =>
      match ensureNames disk anchor above with
      | (part, .ok ()) => part.ensureLast path
      -- What was made above stays.
      | (part, .error fault) => (part, .error fault)
    | .error (.system e) => disk.acceptPresent path (.system e)
    | .error fault => (disk, .error fault)

def ensureDirectory (disk : Disk) (path : Path) : Disk × Except Fault Unit :=
  disk.ensureNames path.anchor path.names.reverse

end Emplace.Disk
