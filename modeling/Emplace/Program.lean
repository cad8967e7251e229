import Emplace.Disk.Calls

/-!
Programs that a run starts. How a program works is left open: a launcher says what it does to the
disk and how it ends. What is proved of a run holds for any launcher.
-/
namespace Emplace

structure Finished where
  status : Int
  output : List UInt8
  complaint : List UInt8
  deriving DecidableEq, Repr

/-- A way to run programs: the disk, the program's name and its arguments give the disk afterwards
and how the program ended, or why it did not start. -/
abbrev Launcher := Disk → String → List String → Disk × Except Fault Finished

end Emplace
