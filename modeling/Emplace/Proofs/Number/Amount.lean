import Emplace.Number.Double
import Mathlib.Algebra.Order.Field.Power
import Mathlib.Data.Rat.Cast.Order

/-!
The amounts that floating-point numbers stand for. Two numbers are equal, and a number is equal to a
whole one, where the amounts are the same, however mantissa and exponent share them out.
-/
namespace Emplace.Number.Double

/-- What a floating-point number stands for. -/
inductive Amount where
  | ratio (value : ℚ)
  | infinite (negative : Bool)
  | nan

def signed (negative : Bool) (mantissa : Nat) : ℚ :=
  if negative then -mantissa else mantissa

def amount : Double → Amount
  | .finite negative mantissa exponent => .ratio (signed negative mantissa * 2 ^ exponent)
  | .infinite negative => .infinite negative
  | .nan => .nan

theorem twoTo_mul {unit exponent : Int} (small : unit ≤ exponent) :
    (twoTo (exponent - unit).toNat : ℚ) * 2 ^ unit = 2 ^ exponent := by
  have size : ((exponent - unit).toNat : Int) = exponent - unit :=
    Int.toNat_of_nonneg (Int.sub_nonneg.mpr small)
  have power : (twoTo (exponent - unit).toNat : ℚ) = 2 ^ (exponent - unit) := by
    calc (twoTo (exponent - unit).toNat : ℚ)
      _ = 2 ^ (exponent - unit).toNat := by simp [twoTo]
      _ = 2 ^ ((exponent - unit).toNat : Int) := (zpow_natCast _ _).symm
      _ = 2 ^ (exponent - unit) := by rw [size]
  rw [power, ← zpow_add₀ two_ne_zero, Int.sub_add_cancel]

/-- In units that are not larger than its own a number is counted exactly. -/
theorem inUnits_mul (negative : Bool) (mantissa : Nat) {exponent unit : Int}
    (small : unit ≤ exponent) :
    (inUnits negative mantissa exponent unit : ℚ) * 2 ^ unit =
      signed negative mantissa * 2 ^ exponent := by
  rw [← twoTo_mul small, ← mul_assoc]
  cases negative <;> simp [inUnits, signed]

theorem whole_mul (i : Int) {unit : Int} (small : unit ≤ 0) :
    ((i * twoTo (0 - unit).toNat : Int) : ℚ) * 2 ^ unit = i := by
  rw [Int.cast_mul, Int.cast_natCast, mul_assoc, twoTo_mul small, zpow_zero, mul_one]

/-- Counts in the same units are the same where the amounts are. -/
theorem counts_eq_iff (m n unit : Int) :
    m = n ↔ (m : ℚ) * 2 ^ unit = (n : ℚ) * 2 ^ unit := by
  rw [mul_left_inj' (zpow_ne_zero unit two_ne_zero), Int.cast_inj]

theorem sameValue_iff (x y : Double) : x.sameValue y = true ↔ x.amount = y.amount := by
  cases x with
  | finite a m p =>
      cases y with
      | finite b n q =>
          simp only [sameValue, beq_iff_eq, amount, Amount.ratio.injEq]
          rw [counts_eq_iff _ _ (min p q), inUnits_mul a m (min_le_left p q),
            inUnits_mul b n (min_le_right p q)]
      | infinite b => simp [sameValue, amount]
      | nan => simp [sameValue, amount]
  | infinite a => cases y <;> simp [sameValue, amount]
  | nan => cases y <;> simp [sameValue, amount]

theorem equalsInt_iff (x : Double) (i : Int) : x.equalsInt i = true ↔ x.amount = .ratio i := by
  cases x with
  | finite a m p =>
      simp only [equalsInt, beq_iff_eq, amount, Amount.ratio.injEq]
      rw [counts_eq_iff _ _ (min p 0), inUnits_mul a m (min_le_left p 0),
        whole_mul i (min_le_right p 0)]
  | infinite a => simp [equalsInt, amount]
  | nan => simp [equalsInt, amount]

end Emplace.Number.Double
