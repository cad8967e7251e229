import Emplace.Command
import Emplace.Shell.Run

/-!
The command as a program. It takes the files that the command line names onto a disk, answers, and
writes back what has changed. Compilers that are scripts are run, by a launcher that stands in for the
shell of a system; others are refused.
-/
namespace Emplace.Main

def hold (disk : Disk) (file : String) (bytes : ByteArray) : Disk :=
  let path := Path.ofString file
  let (disk, _) := disk.ensureDirectory path.parent
  match disk.locate .target path with
  | .ok (.present loc _) => disk.put loc (.file bytes true)
  | .ok (.absent dir name) => disk.put (dir ++ [name]) (.file bytes true)
  | .error _ => disk

def argumentFiles (arguments : List String) : List String :=
  arguments.filterMap fun argument =>
    match argument.toList with
    | '@' :: '@' :: _ => none
    | '@' :: rest => some (String.ofList rest)
    | _ => none

def requestFiles (disk : Disk) (arguments : List String) : List String :=
  match Params.expand disk arguments with
  | .error _ => []
  | .ok arguments =>
    match CommandLine.parse arguments with
    | .error _ => []
    | .ok request => request.compiler :: request.config.toList

/-- The entries of a disk that another disk does not have as they are. -/
def changed (before after : Disk) : List (Location × Entry) :=
  after.entries.filter fun row => before.get? row.1 != some row.2

def usageText : CommandLine.Ending → String
  | .help => "usage: " ++ Command.name ++ " --protoc PROTOC --out_path OUT_PATH --plugin PLUGIN\n"
  | .refused e => Command.name ++ ": error: " ++ e.message ++ "\n"

def exitCode : Exit → Nat
  | .status code => code
  | .usage .help => 0
  | .usage (.refused _) => 2
  | .fault _ => 1

def exitText : Exit → String × String
  | .status _ => ("", "")
  | .usage .help => (usageText .help, "")
  | .usage ending => ("", usageText ending)
  | .fault fault => ("", Command.name ++ ": " ++ fault.message ++ "\n")

def fetch (disk : Disk) (file : String) : IO Disk := do
  try
    return hold disk file (← IO.FS.readBinFile file)
  catch _ =>
    return disk

def store (row : Location × Entry) : IO Unit := do
  match row with
  | (loc, .directory) => IO.FS.createDirAll (Disk.pathOf loc).text
  | (loc, .file bytes _) =>
    IO.FS.createDirAll (Disk.pathOf loc).parent.text
    IO.FS.writeBinFile (Disk.pathOf loc).text bytes
  | _ => return

def answer (arguments : List String) : IO Nat := do
  let cwd := (Path.ofString (toString (← IO.currentDir))).names
  let (start, _) := (Disk.mk [] []).ensureDirectory (Disk.pathOf (cwd ++ ["tmp"]))
  let given ← (argumentFiles arguments).foldlM fetch { start with cwd }
  let disk ← (requestFiles given arguments).foldlM fetch given
  let now ← IO.monoNanosNow
  let around : Surroundings :=
    ⟨Shell.launch, (Disk.pathOf (cwd ++ ["tmp"])).text, [Text.natural now],
      ⟨.ofNat (now / 1000000000), 0⟩⟩
  let answered := Command.run around disk arguments
  let (more, said) := exitText answered.exit
  (changed disk answered.disk).forM store
  (← IO.getStdout).putStr (answered.output ++ more)
  (← IO.getStderr).putStr (answered.complaint ++ said)
  return exitCode answered.exit

end Emplace.Main

def main (arguments : List String) : IO UInt32 := do
  return UInt32.ofNat (← Emplace.Main.answer arguments)
