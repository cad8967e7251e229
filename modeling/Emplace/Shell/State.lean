import Emplace.Program
import Emplace.Shell.Arithmetic
import Emplace.Shell.Stream
import Emplace.Shell.Syntax
import Emplace.Text.Octets

/-!
What a script has done so far: to the disk, to its variables and on its streams. All text of a
script has one character for each byte.
-/
namespace Emplace.Shell

structure Resident where
  bytes : ByteArray
  act : Disk → List String → Disk × Finished

structure Variable where
  name : String
  value : Option String
  exported : Bool
  fixed : Bool
  deriving DecidableEq, Repr

inductive Jump where
  | exit (status : Nat)
  | killed (signal : Nat)
  | leave (loops : Nat)
  /-- Out of all but the last of so many loops, which goes on with its next round. -/
  | again (loops : Nat)
  | back
  deriving DecidableEq, Repr

structure State where
  disk : Disk
  residents : List Resident
  name : String
  arguments : List String
  bindings : List Variable
  functions : List (String × Command)
  aliases : List (String × String)
  /-- The options that are on, by their letters. -/
  options : List Char
  /-- What is to be done on signals and at the end, by their names. -/
  traps : List (String × String)
  descriptors : List (Nat × Nat)
  handles : Array Handle
  /-- The variables that functions hide, innermost function first, as they were before. -/
  hidden : List (List (String × Option Variable))
  loops : Nat
  /-- The last command that was left to itself, and how it ended. -/
  job : Option Nat
  /-- How far into an argument its options have been read. -/
  letter : Nat
  /-- What is to be done for signals once the command ends. -/
  pending : List String
  /-- How many processes this one is away from the one that the script knows as itself. -/
  level : Nat
  /-- The signals that are on their way there. -/
  sent : List String
  /-- The status of the last command whose output was taken into a word. -/
  inner : Option Nat
  status : Nat
  line : Nat
  speaker : Option String
  jump : Option Jump

namespace State

def ownNumber : String := "4242"

def jobNumber : String := "4243"

def given (disk : Disk) : List Variable := [
  ⟨"HOME", some "/root", true, false⟩,
  ⟨"PATH", some "/usr/local/sbin:/usr/local/bin:/usr/sbin:/usr/bin:/sbin:/bin", true, false⟩,
  ⟨"PWD", some (Text.asOctets ("/" ++ Text.join "/" disk.cwd)), true, false⟩]

def own : List Variable := [
  ⟨"IFS", some " \t\n", false, false⟩, ⟨"OPTIND", some "1", false, false⟩,
  ⟨"PS1", some "# ", false, false⟩, ⟨"PS2", some "> ", false, false⟩,
  ⟨"PS4", some "+ ", false, false⟩]

/-- The state in which a program begins: it reads from the first handle and writes to the next
two. -/
def fresh (disk : Disk) (residents : List Resident) (name : String) : State where
  disk := disk
  residents := residents
  name := name
  arguments := []
  bindings := given disk
  functions := []
  aliases := []
  options := []
  traps := []
  descriptors := [(0, 0), (1, 1), (2, 2)]
  handles := #[.source [], .sink, .sink]
  hidden := []
  loops := 0
  job := none
  letter := 0
  pending := []
  level := 0
  sent := []
  inner := none
  status := 0
  line := 0
  speaker := none
  jump := none

def child (state : State) (name : String) (arguments : List String) : State :=
  { state with
    name, arguments
    bindings := own ++ state.bindings.filter fun v =>
      v.exported && !own.any fun o => o.name = v.name
    functions := []
    aliases := []
    options := []
    traps := []
    hidden := []
    loops := 0
    job := none
    letter := 0
    pending := []
    level := 0
    sent := []
    inner := none
    status := 0
    line := 0
    speaker := none }

def overrun (state : State) : State := { state with jump := some (.killed 9) }

def withStatus (state : State) (status : Nat) : State := { state with status }

def exit (state : State) (status : Nat) : State :=
  { state with status, jump := some (.exit (status % 256)) }

/-! ## Streams -/

def handle? (state : State) (descriptor : Nat) : Option (Nat × Handle) :=
  match state.descriptors.lookup descriptor with
  | none => none
  | some index => state.handles[index]?.map fun handle => (index, handle)

/-- Writes bytes to a descriptor; nothing comes of it where that is closed. -/
def writeBytes (state : State) (descriptor : Nat) (bytes : List UInt8) : State :=
  match state.handle? descriptor with
  | none => state
  | some (index, handle) =>
    let (handle, disk) := handle.write state.disk bytes
    { state with disk, handles := state.handles.setIfInBounds index handle }

def print (state : State) (text : String) : State :=
  state.writeBytes 1 (Text.octetBytes text)

def tell (state : State) (text : String) : State :=
  state.writeBytes 2 (Text.octetBytes (text ++ "\n"))

def takeBytes (state : State) (descriptor : Nat) (wanted : List UInt8 → Nat) :
    List UInt8 × State :=
  match state.handle? descriptor with
  | none => ([], state)
  | some (index, handle) =>
    let bytes := handle.available state.disk
    let count := wanted bytes
    (bytes.take count,
      { state with handles := state.handles.setIfInBounds index (handle.skip count) })

def takeAll (state : State) (descriptor : Nat) : List UInt8 × State :=
  state.takeBytes descriptor List.length

def opened (state : State) (handle : Handle) : State × Nat :=
  ({ state with handles := state.handles.push handle }, state.handles.size)

def connect (state : State) (descriptor index : Nat) : State :=
  { state with
    descriptors := (descriptor, index) :: state.descriptors.filter fun row => row.1 ≠ descriptor }

def close (state : State) (descriptor : Nat) : State :=
  { state with descriptors := state.descriptors.filter fun row => row.1 ≠ descriptor }

def written (state : State) (index : Nat) : List UInt8 :=
  match state.handles[index]? with
  | some handle => handle.content.reverse
  | none => []

/-! ## Complaints -/

def complain (state : State) (what : String) : State :=
  let place := state.name ++ ": " ++ Text.natural state.line ++ ": "
  let speaker := match state.speaker with
    | none => ""
    | some name => name ++ ": "
  state.tell (place ++ speaker ++ what)

def fail (state : State) (what : String) : State := (state.complain what).exit 2

/-! ## Variables -/

def binding? (state : State) (name : String) : Option Variable :=
  state.bindings.find? fun v => v.name = name

def value? (state : State) (name : String) : Option String :=
  (state.binding? name).bind Variable.value

def valueOf (state : State) (name : String) : String := (state.value? name).getD ""

def isOn (state : State) (option : Char) : Bool := state.options.contains option

/-- The state with a variable in the place of the one of the same name. -/
def put (state : State) (v : Variable) : State :=
  { state with bindings := v :: state.bindings.filter fun old => old.name ≠ v.name }

def remove (state : State) (name : String) : State :=
  { state with bindings := state.bindings.filter fun old => old.name ≠ name }

/-- Gives a variable a value, unless it is fixed. -/
def assign (state : State) (name value : String) : State :=
  match state.binding? name with
  | none => state.put ⟨name, some value, state.isOn 'a', false⟩
  | some v =>
    if v.fixed then state.fail (name ++ ": is read only")
    else
      let state := if name = "OPTIND" then { state with letter := 0 } else state
      state.put { v with value := some value, exported := v.exported || state.isOn 'a' }

def restore (state : State) : List (String × Option Variable) → State
  | [] => state
  | (name, none) :: rest => restore (state.remove name) rest
  | (_, some v) :: rest => restore (state.put v) rest

def separators (state : State) : List Char :=
  ((state.value? "IFS").getD " \t\n").toList

def between (state : State) : List Char := state.separators.take 1

/-! ## Other processes -/

def ending (state : State) : Nat :=
  match state.jump with
  | some (.exit status) => status
  | some (.killed signal) => 128 + signal
  | _ => state.status

/-- The state of a script behind a process that worked on its own copy of it: the disk and the open
files are the same for both. -/
def rejoin (outer inner : State) : State :=
  { outer with
    disk := { inner.disk with cwd := outer.disk.cwd }
    handles := inner.handles
    status := inner.ending
    sent := inner.sent }

def finished (state : State) : Finished where
  status := match state.jump with
    | some (.killed signal) => -(signal : Int)
    | _ => state.ending
  output := state.written 1
  complaint := state.written 2

end State
end Emplace.Shell
