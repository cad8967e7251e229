import Emplace.Path

/-!
What is known of one relative path of a run: whether it was declared, how it was matched, and which
scratch file supplies its bytes.
-/
namespace Emplace

/-- How a declared output was, or was not, satisfied by the scratch tree. -/
inductive MatchState where
  | unmatched
  | exact
  | fallback
  | ambiguous
  deriving DecidableEq, Repr

namespace MatchState

def label : MatchState → String
  | .unmatched => "unmatched"
  | .exact => "matched_exact"
  | .fallback => "matched_fallback"
  | .ambiguous => "ambiguous"

/-- All states in the alphabetical order of their labels. -/
def all : List MatchState := [.ambiguous, .exact, .fallback, .unmatched]

def isMatch : MatchState → Bool
  | .exact => true
  | .fallback => true
  | _ => false

/-- The order in which a record can move during a run. -/
def rank : MatchState → Nat
  | .unmatched => 0
  | .fallback => 1
  | .ambiguous => 2
  | .exact => 3

theorem label_injective {a b : MatchState} (same : a.label = b.label) : a = b := by
  cases a <;> cases b <;> first | rfl | exact absurd same (by decide)

end MatchState

structure Record where
  path : String
  basename : String
  expected : Bool
  unique : Bool
  state : MatchState
  source : Option Path
  deriving DecidableEq, Repr

namespace Record

def ofPath (path : String) (expected : Bool) : Record :=
  ⟨path, (Path.ofString path).basename, expected, true, .unmatched, none⟩

def resolved (record : Record) : Bool := record.state.isMatch

end Record
end Emplace
