import Emplace.Number.Rounded
import Emplace.Text.Quoted
import Mathlib.Tactic.Ring

/-!
Digits that are read back. What `digits` and `hex` write is the number again, whatever zeros stand
in front of it, and `digits` puts no zero in front of a number.
-/
namespace Emplace.Text

theorem number?_concat (base : Nat) (chars : List Char) (c : Char) :
    number? base (chars ++ [c]) = (number? base chars).bind fun total =>
      (baseDigit? c).bind fun digit =>
        if digit < base then some (total * base + digit) else none := by
  unfold number?
  rw [List.foldlM_append]
  cases List.foldlM (m := Option) (fun total c => do
    let digit ← baseDigit? c
    if digit < base then some (total * base + digit) else none) 0 chars <;> simp

theorem baseDigit?_hexDigit : ∀ n < 16, baseDigit? (hexDigit n) = some n := by decide

theorem baseDigit?_digitChar : ∀ n < 10, baseDigit? (digitChar n) = some n := by decide

theorem number?_hex (width n : Nat) : number? 16 (hex width n) = some (n % 16 ^ width) := by
  induction width generalizing n with
  | zero => simp [hex, number?, Nat.mod_one]
  | succ width ih =>
      have small : n % 16 < 16 := Nat.mod_lt n (by decide)
      rw [hex, number?_concat, ih, Option.bind_some, baseDigit?_hexDigit _ small, Option.bind_some,
        if_pos small, pow_succ', Nat.mod_mul]
      congr 1
      ring

theorem digitChar_mod (n : Nat) : digitChar n = digitChar (n % 10) := by
  simp [digitChar]

theorem number?_padded (width n : Nat) : number? 10 (padded width n) = some (n % 10 ^ width) := by
  induction width generalizing n with
  | zero => simp [padded, number?, Nat.mod_one]
  | succ width ih =>
      have small : n % 10 < 10 := Nat.mod_lt n (by decide)
      rw [padded, number?_concat, ih, Option.bind_some, digitChar_mod,
        baseDigit?_digitChar _ small, Option.bind_some, if_pos small, pow_succ', Nat.mod_mul]
      congr 1
      ring

theorem lt_pow_digitCount (fuel n : Nat) (enough : n ≤ fuel) : n < 10 ^ digitCount fuel n := by
  induction fuel generalizing n with
  | zero =>
      have none : n = 0 := Nat.le_zero.mp enough
      simp [digitCount, none]
  | succ fuel ih =>
      rw [digitCount]
      split
      · simpa
      · have tenth := ih (n / 10) (by omega)
        rw [pow_succ]
        omega

theorem number?_digits (n : Nat) : number? 10 (digits n) = some n := by
  rw [digits, number?_padded, Nat.mod_eq_of_lt (lt_pow_digitCount n n (Nat.le_refl n))]

theorem number?_zeros (count : Nat) (chars : List Char) :
    number? 10 (List.replicate count '0' ++ chars) = number? 10 chars := by
  induction count with
  | zero => rfl
  | succ count ih => exact ih

theorem isDigit_digitChar (n : Nat) : (digitChar n).isDigit := by
  have small : n % 10 < 10 := Nat.mod_lt n (by decide)
  have all : ∀ k < 10, (digitChar k).isDigit := by decide
  rw [digitChar_mod]
  exact all _ small

theorem isDigit_of_mem_padded {width n : Nat} {c : Char} (member : c ∈ padded width n) :
    c.isDigit := by
  induction width generalizing n with
  | zero => cases member
  | succ width ih =>
      rcases List.mem_append.mp member with before | last
      · exact ih before
      · rw [List.mem_singleton.mp last]
        exact isDigit_digitChar n

theorem isDigit_of_mem_digits {n : Nat} {c : Char} (member : c ∈ digits n) : c.isDigit :=
  isDigit_of_mem_padded member

theorem length_padded (width n : Nat) : (padded width n).length = width := by
  induction width generalizing n with
  | zero => rfl
  | succ width ih => simp [padded, ih]

theorem digits_ne_nil (n : Nat) : digits n ≠ [] := by
  have positive : 0 < digitCount n n := by
    cases n with
    | zero => decide
    | succ n =>
        rw [digitCount]
        split <;> omega
  intro empty
  have length := length_padded (digitCount n n) n
  rw [show padded (digitCount n n) n = [] from empty] at length
  simp only [List.length_nil] at length
  omega

/-- The first digit is a zero only where it is the only one. -/
theorem padded_digitCount_zero {fuel n : Nat} (enough : n ≤ fuel) {rest : List Char}
    (starts : padded (digitCount fuel n) n = '0' :: rest) : rest = [] := by
  induction fuel generalizing n rest with
  | zero =>
      simp only [digitCount, padded, List.nil_append, List.cons.injEq] at starts
      exact starts.2.symm
  | succ fuel ih =>
      rw [digitCount] at starts
      split at starts
      · simp only [padded, List.nil_append, List.cons.injEq] at starts
        exact starts.2.symm
      · rename_i large
        rw [padded] at starts
        -- The digits of the tenth begin in the same way, and a tenth that is not zero has no zero
        -- in front.
        have tenth : n / 10 ≤ fuel := by omega
        cases first : padded (digitCount fuel (n / 10)) (n / 10) with
        | nil =>
            have length := length_padded (digitCount fuel (n / 10)) (n / 10)
            have bound := lt_pow_digitCount fuel (n / 10) tenth
            rw [first, List.length_nil] at length
            rw [← length] at bound
            omega
        | cons c others =>
            rw [first, List.cons_append, List.cons.injEq] at starts
            obtain ⟨rfl, -⟩ := starts
            have single := ih tenth first
            subst single
            have value := number?_padded (digitCount fuel (n / 10)) (n / 10)
            rw [first, Nat.mod_eq_of_lt (lt_pow_digitCount fuel (n / 10) tenth)] at value
            have zero : n / 10 = 0 := by simpa [number?, baseDigit?] using value.symm
            omega

theorem digits_zero {n : Nat} {rest : List Char} (starts : digits n = '0' :: rest) : rest = [] :=
  padded_digitCount_zero (Nat.le_refl n) starts

end Emplace.Text
