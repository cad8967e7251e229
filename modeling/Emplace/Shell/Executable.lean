import Emplace.Shell.State

/-!
What a program's name leads to: the shell, one of the tools that every system has, a program that is
known by what its file holds, or a file that names the program that is to run it.
-/
namespace Emplace.Shell

inductive Executable where
  | shell
  | tool (name : String)
  | resident (program : Resident)

namespace Executable

def toolPlaces : List String := ["/bin/", "/usr/bin/"]

def shells : List String := ["sh", "dash", "bash"]

def tools : List String := [
  "[", "base64", "basename", "cat", "chmod", "cmp", "cp", "cut", "dirname", "echo", "egrep", "env",
  "expr", "false", "fgrep", "find", "grep", "head", "ln", "ls", "mkdir", "mkfifo", "mv", "nice",
  "nohup", "od", "printenv", "printf", "pwd", "readlink", "realpath", "rev", "rm", "rmdir",
  "sed", "seq", "setsid", "sleep", "sort", "sync", "tac", "tail", "tee", "test", "timeout", "touch",
  "tr", "true", "uname", "uniq", "wc", "which", "whoami", "xargs", "yes"]

def known? (name : String) : Option Executable :=
  if shells.contains name then some .shell
  else if tools.contains name then some (.tool name)
  else none

def placed? (path : String) : Option Executable :=
  (toolPlaces.find? fun place => Text.startsWith path place).bind fun place =>
    known? (Text.dropStart path place)

def isBlank (b : UInt8) : Bool := b = 32 || b = 9

/-- The program that the first line of a file names, and the argument that it gives it. -/
def interpreter? (bytes : List UInt8) : Option (String × List String) :=
  match bytes with
  | 35 :: 33 :: rest =>
    let line := (rest.takeWhile (· ≠ 10)).dropWhile isBlank
    let line := (line.reverse.dropWhile isBlank).reverse
    let name := line.takeWhile fun b => !isBlank b
    let argument := (line.drop name.length).dropWhile isBlank
    if name.isEmpty then none
    else some (Text.octets name, if argument.isEmpty then [] else [Text.octets argument])
  | _ => none

/-- The bytes of the file that a program's path leads to, if it may be run. -/
def runnable (disk : Disk) (program : String) : Except Cause (List UInt8) :=
  match disk.status (Path.raw (Text.ofOctets program)) with
  | .error cause => .error cause
  | .ok (.file bytes true) => .ok bytes.toList
  | .ok _ => .error .permission

def resident? (residents : List Resident) (bytes : List UInt8) : Option Resident :=
  residents.find? fun program => program.bytes.toList = bytes

def turnLimit : Nat := 5

/-- What a path leads to, and the arguments that it gets; all names have one character for each
byte. -/
def atPath (disk : Disk) (residents : List Resident) :
    Nat → String → List String → Except Cause (Executable × List String)
  | 0, _, _ => .error .tooManyLinks
  | turns + 1, program, arguments =>
    match placed? program with
    | some executable => .ok (executable, arguments)
    | none =>
      match runnable disk program with
      | .error cause => .error cause
      | .ok bytes =>
        match resident? residents bytes, interpreter? bytes with
        | some found, _ => .ok (.resident found, arguments)
        | none, none => .error .execFormat
        | none, some (name, extra) =>
          atPath disk residents turns name (extra ++ program :: arguments)

def directoryNames : List String := ["", ".", ".."]

/-- What a program's name leads to: a path where it has a slash, else one of the tools. -/
def resolve (disk : Disk) (residents : List Resident) (program : String)
    (arguments : List String) : Except Cause (Executable × List String) :=
  if program.toList.contains '/' then atPath disk residents turnLimit program arguments
  else if directoryNames.contains program then .error .permission
  else if Disk.nameLimit < program.length then .error .nameTooLong
  else match known? program with
    | some executable => .ok (executable, arguments)
    | none => .error .noEntry

/-- What is found under a name in the directories of a search path: the full name, or why there is
none. -/
def search (disk : Disk) (name : String) : List String → Except Cause String
  | [] => .error .noEntry
  | dir :: rest =>
    let full := if dir = "" then name else dir ++ "/" ++ name
    match placed? full, disk.status (Path.raw (Text.ofOctets full)) with
    | some _, _ => .ok full
    | none, .ok (.file _ _) => .ok full
    | none, .ok _ =>
      match search disk name rest with
      | .error .noEntry => .error .permission
      | found => found
    | none, .error cause =>
      match search disk name rest, cause with
      | .error .noEntry, .noEntry => .error .noEntry
      | .error .noEntry, .notDirectory => .error .noEntry
      | .error .noEntry, cause => .error cause
      | found, _ => found

end Executable

def State.find (state : State) (name : String) : Except Cause String :=
  if name.toList.contains '/' then .ok name
  else
    let path := (state.value? "PATH").getD "/usr/bin:/bin"
    Executable.search state.disk name (Text.split ':' path)

end Emplace.Shell
