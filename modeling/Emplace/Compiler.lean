import Emplace.Failure
import Emplace.Program
import Emplace.Text.Blank
import Emplace.Text.Decoding

/-!
Running the compiler. What it writes is passed on as text; a compiler that does not start, or does
not end well, is an error that names the whole command.
-/
namespace Emplace

structure Compiled where
  disk : Disk
  output : String
  complaint : String
  result : Except Failure Unit

namespace Compiler

def commandText (program : String) (arguments : List String) : String :=
  Text.join " " (program :: arguments)

def verdict (command : String) (status : Int) (complaint : String) : Except Failure Unit :=
  if status = 0 then .ok ()
  else
    let shown := if complaint = "" then none else some (Text.trimEnd complaint)
    .error (.invocation (.exited command status shown))

def run (launch : Launcher) (disk : Disk) (program : String) (arguments : List String) :
    Compiled :=
  let command := commandText program arguments
  match launch disk program arguments with
  | (disk, .error fault) =>
    ⟨disk, "", "", .error (fault.blame fun e => .invocation (.notStarted command e))⟩
  | (disk, .ok finished) =>
    let complaint := Text.readable finished.complaint
    ⟨disk, Text.readable finished.output, complaint, verdict command finished.status complaint⟩

end Compiler
end Emplace
