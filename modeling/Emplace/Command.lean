import Emplace.CommandLine
import Emplace.Compilation
import Emplace.Params

/-!
The command: its arguments, those in files included, ask for a run, and the failure of a run becomes
an exit status and a line that says why. Faults are left to the caller.
-/
namespace Emplace

inductive Exit where
  | status (code : Nat)
  | usage (ending : CommandLine.Ending)
  | fault (fault : Fault)
  deriving DecidableEq, Repr

structure Answered where
  disk : Disk
  output : String
  complaint : String
  exit : Exit

namespace Command

def name : String := "protoc-adapter"

def closing : Except Failure Unit → List Said
  | .ok () => []
  | .error (.fault _) => []
  | .error failure => [.note (.failed failure)]

def exitOf : Except Failure Unit → Exit
  | .ok () => .status 0
  | .error (.fault fault) => .fault fault
  | .error _ => .status 1

def serve (around : Surroundings) (disk : Disk) (request : Request) : Answered :=
  let ran := Compilation.run around disk request
  ⟨ran.disk, ran.output,
    Log.render (Level.ofVerbosity request.verbosity) (ran.log ++ closing ran.result),
    exitOf ran.result⟩

def run (around : Surroundings) (disk : Disk) (arguments : List String) : Answered :=
  match Params.expand disk arguments with
  | .error (.fault fault) => ⟨disk, "", "", .fault fault⟩
  | .error failure => ⟨disk, "", name ++ ": " ++ failure.message ++ "\n", .status 1⟩
  | .ok arguments =>
    match CommandLine.parse arguments with
    | .error ending => ⟨disk, "", "", .usage ending⟩
    | .ok request => serve around disk request

end Command
end Emplace
