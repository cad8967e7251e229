import Emplace.Note

/-!
What a run says beside its result: its own notes, and text that it passes on from a program. A log
holds both in the order in which they came; a reader sees the notes from some level on.
-/
namespace Emplace

inductive Said where
  | note (note : Note)
  | passedOn (text : String)
  deriving DecidableEq, Repr

namespace Level

/-- The least level that is shown when more detail is asked for a number of times. -/
def ofVerbosity : Nat → Level
  | 0 => warning
  | 1 => info
  | _ => debug

end Level

namespace Log

def shown (least : Level) : Said → String
  | .note note => if least.rank ≤ note.level.rank then note.line else ""
  | .passedOn text => text

def render (least : Level) (log : List Said) : String :=
  Text.join "" (log.map (shown least))

end Log
end Emplace
