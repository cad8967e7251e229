import Emplace.Proofs.Number.Amount
import Emplace.Value

/-!
What makes two values one key. Every key has an identity, and keys are the same where their
identities are; so being the same key is an equivalence on the values that can be keys.
-/
namespace Emplace

/-- The distance of a moment from universal time counts only where it is known. -/
inductive Moment.Instant where
  | universal (minute : Int) (second microsecond : Nat)
  | local (moment : Moment)

def Moment.instant (m : Moment) : Moment.Instant :=
  match m.offset with
  | some offset => .universal (m.minuteAt offset) m.second m.microsecond
  | none => .local m

theorem Moment.same_iff (a b : Moment) : a.same b = true ↔ a.instant = b.instant := by
  unfold Moment.same Moment.instant
  cases first : a.offset with
  | some offset =>
      cases second : b.offset with
      | some other => simp [and_assoc]
      | none =>
          have differ : a ≠ b := fun same => by simp [same, second] at first
          simpa using differ
  | none =>
      cases second : b.offset with
      | some other =>
          have differ : a ≠ b := fun same => by simp [same, second] at first
          simpa using differ
      | none => simp

namespace Value

/-- What a key is to a lookup. -/
inductive Identity where
  | null
  | number (amount : Number.Double.Amount)
  | nan (label : Nat)
  | text (s : String)
  | broken (letters : List Text.Letter)
  | bytes (content : List UInt8)
  | date (d : Date)
  | instant (i : Moment.Instant)

/-- The identity of a value, if it can be a key. -/
def identity? : Value → Option Identity
  | null => some .null
  | bool b => some (.number (.ratio (if b then 1 else 0 : Int)))
  | int i => some (.number (.ratio i))
  | float x => some (.number x.amount)
  | nan label => some (.nan label)
  | text s => some (.text s)
  | broken letters => some (.broken letters)
  | bytes content => some (.bytes content)
  | date d => some (.date d)
  | moment m => some (.instant m.instant)
  | _ => none

theorem sameKey_iff (a b : Value) :
    sameKey a b = true ↔ a.identity?.isSome ∧ a.identity? = b.identity? := by
  -- Two kinds of values have a key in common only where both are numbers.
  cases a <;> cases b <;>
    simp [sameKey, identity?, wholeNumber?, Number.Double.sameValue_iff,
      Number.Double.equalsInt_iff, Moment.same_iff, -Int.cast_ite]
  case bool.float => exact eq_comm
  case int.float => exact eq_comm

/-- One key is as good as another that it is the same as. -/
theorem sameKey_congr {a b : Value} (same : sameKey a b = true) (other : Value) :
    sameKey other a = sameKey other b := by
  rw [Bool.eq_iff_iff, sameKey_iff, sameKey_iff, ((sameKey_iff a b).mp same).2]

variable {Item : Type}

theorem find?_congr {a b : Value} (same : sameKey a b = true) (entries : List (Value × Item)) :
    find? a entries = find? b entries := by
  induction entries with
  | nil => rfl
  | cons entry rest ih => rw [find?, find?, sameKey_congr same, ih]

end Value
end Emplace
