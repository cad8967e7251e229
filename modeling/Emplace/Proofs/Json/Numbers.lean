import Emplace.Json
import Emplace.Number.Whole
import Emplace.Proofs.Digits

/-!
Reading numbers. A number is a sign, digits without a zero in front, and perhaps a point with digits
and a power of ten. Reading gives back the numeral that was written, where nothing follows it that
goes on with it.
-/
namespace Emplace.Json

/-- The digits that a text begins with, one at least, and what follows. -/
def digits? (chars : List Char) : Option (List Char × List Char) :=
  match chars.takeWhile Char.isDigit with
  | [] => none
  | digit :: more => some (digit :: more, chars.dropWhile Char.isDigit)

def whole? (chars : List Char) : Option (Nat × List Char) :=
  match digits? chars with
  | none => none
  | some ('0' :: _ :: _, _) => none
  | some (digits, rest) => (Text.number? 10 digits).map fun n => (n, rest)

def digitOf (c : Char) : Fin 10 := Fin.ofNat 10 (c.toNat - 48)

def fraction? : List Char → Option (List (Fin 10) × List Char)
  | '.' :: rest => (digits? rest).map fun read => (read.1.map digitOf, read.2)
  | chars => some ([], chars)

def power? : List Char → Option (Option Int × List Char)
  | [] => some (none, [])
  | e :: rest =>
    if e = 'e' ∨ e = 'E' then
      let (negative, chars) := Number.cutSign rest
      match digits? chars with
      | none => none
      | some (digits, rest) => (Text.number? 10 digits).map fun n =>
        (some (if negative then -(n : Int) else n), rest)
    else some (none, e :: rest)

def cutMinus : List Char → Bool × List Char
  | '-' :: rest => (true, rest)
  | chars => (false, chars)

/-- Reads a number, and gives what follows as well. -/
def numeral? (chars : List Char) : Option (Numeral × List Char) :=
  let (negative, chars) := cutMinus chars
  match whole? chars with
  | none => none
  | some (whole, chars) =>
    match fraction? chars with
    | none => none
    | some (fraction, chars) =>
      (power? chars).map fun read => (⟨negative, whole, fraction, read.1⟩, read.2)

/-- What follows does not go on with a number. -/
def Ends (rest : List Char) : Prop :=
  ∀ c, rest.head? = some c → c.isDigit = false ∧ c ≠ '.' ∧ c ≠ 'e' ∧ c ≠ 'E'

def NoDigit (rest : List Char) : Prop := ∀ c, rest.head? = some c → c.isDigit = false

theorem Ends.noDigit {rest : List Char} (ends : Ends rest) : NoDigit rest :=
  fun c starts => (ends c starts).1

theorem digits?_append {digits rest : List Char} (nonempty : digits ≠ [])
    (all : ∀ c ∈ digits, c.isDigit) (stops : NoDigit rest) :
    digits? (digits ++ rest) = some (digits, rest) := by
  have none : rest.takeWhile Char.isDigit = [] ∧ rest.dropWhile Char.isDigit = rest := by
    cases rest with
    | nil => exact ⟨rfl, rfl⟩
    | cons c more => simp [stops c rfl]
  cases digits with
  | nil => exact absurd rfl nonempty
  | cons digit more =>
      simp only [digits?, List.takeWhile_append_of_pos all, List.dropWhile_append_of_pos all,
        none.1, none.2, List.append_nil]

theorem whole?_digits (n : Nat) {rest : List Char} (stops : NoDigit rest) :
    whole? (Text.digits n ++ rest) = some (n, rest) := by
  have read := digits?_append (Text.digits_ne_nil n) (fun c => Text.isDigit_of_mem_digits) stops
  unfold whole?
  rw [read]
  split
  · contradiction
  · rename_i first more _ same
    simp only [Option.some.injEq, Prod.mk.injEq] at same
    cases Text.digits_zero same.1
  · rename_i digits after _ same
    simp only [Option.some.injEq, Prod.mk.injEq] at same
    obtain ⟨rfl, rfl⟩ := same
    rw [Text.number?_digits]
    rfl

theorem digitOf_digitChar (digit : Fin 10) : digitOf (Text.digitChar digit.val) = digit := by
  revert digit
  decide

theorem fraction?_fractionChars (fraction : List (Fin 10)) {rest : List Char}
    (stops : NoDigit rest) (point : rest.head? ≠ some '.') :
    fraction? (Numeral.fractionChars fraction ++ rest) = some (fraction, rest) := by
  cases fraction with
  | nil =>
      unfold fraction?
      split
      · rename_i more same
        simp only [Numeral.fractionChars, List.nil_append] at same
        rw [same] at point
        exact absurd rfl point
      · rfl
  | cons digit more =>
      have all : ∀ c ∈ (digit :: more).map fun digit => Text.digitChar digit.val, c.isDigit := by
        intro c member
        obtain ⟨origin, -, rfl⟩ := List.mem_map.mp member
        exact Text.isDigit_digitChar _
      have read := digits?_append (by simp) all stops
      simp only [Numeral.fractionChars, List.cons_append, fraction?, Option.map_eq_some_iff]
      refine ⟨_, read, ?_⟩
      simp [Function.comp_def, digitOf_digitChar]

/-- The digits of a power of ten, with a zero in front of a single one. -/
theorem digits?_padded (n : Nat) {rest : List Char} (stops : NoDigit rest) :
    digits? (Number.Rounded.padded 2 n ++ rest) = some (Number.Rounded.padded 2 n, rest) := by
  have all : ∀ c ∈ Number.Rounded.padded 2 n, c.isDigit := by
    intro c member
    rcases List.mem_append.mp member with zero | digit
    · rw [List.eq_of_mem_replicate zero]
      rfl
    · exact Text.isDigit_of_mem_digits digit
  exact digits?_append (by simp [Number.Rounded.padded, Text.digits_ne_nil]) all stops

theorem power?_powerChars (power : Option Int) {rest : List Char} (ends : Ends rest) :
    power? (Numeral.powerChars power ++ rest) = some (power, rest) := by
  cases power with
  | none =>
      cases rest with
      | nil => rfl
      | cons c more =>
          obtain ⟨-, -, lower, upper⟩ := ends c rfl
          simp [Numeral.powerChars, power?, lower, upper]
  | some power =>
      obtain ⟨n, amount⟩ : ∃ n, power.natAbs = n := ⟨_, rfl⟩
      have read := digits?_padded n ends.noDigit
      have value : Text.number? 10 (Number.Rounded.padded 2 n) = some n := by
        rw [Number.Rounded.padded, Text.number?_zeros, Text.number?_digits]
      by_cases negative : power < 0
      · have size : -(n : Int) = power := by omega
        simp [Numeral.powerChars, Number.Rounded.powerOf, amount, negative, power?, Number.cutSign,
          read, value, size]
      · have size : (n : Int) = power := by omega
        simp [Numeral.powerChars, Number.Rounded.powerOf, amount, negative, power?, Number.cutSign,
          read, value, size]

theorem numeral?_chars (n : Numeral) {rest : List Char} (ends : Ends rest) :
    numeral? (n.chars ++ rest) = some (n, rest) := by
  obtain ⟨negative, whole, fraction, power⟩ := n
  -- What follows the whole part begins with a point, with the sign of a power, or not at all.
  have behind : NoDigit (Numeral.powerChars power ++ rest) ∧
      (Numeral.powerChars power ++ rest).head? ≠ some '.' := by
    cases power with
    | none => exact ⟨ends.noDigit, fun point => (ends '.' point).2.1 rfl⟩
    | some power => exact ⟨fun c starts => by cases starts; rfl, by
        simp [Numeral.powerChars, Number.Rounded.powerOf]⟩
  have stops : NoDigit (Numeral.fractionChars fraction ++ (Numeral.powerChars power ++ rest)) := by
    cases fraction with
    | nil => exact behind.1
    | cons digit more => exact fun c starts => by cases starts; rfl
  have cut : cutMinus ((if negative then ['-'] else []) ++ (Text.digits whole ++
      (Numeral.fractionChars fraction ++ (Numeral.powerChars power ++ rest)))) =
      (negative, Text.digits whole ++
        (Numeral.fractionChars fraction ++ (Numeral.powerChars power ++ rest))) := by
    cases negative with
    | true => rfl
    | false =>
        rw [if_neg (by decide), List.nil_append]
        unfold cutMinus
        split
        · rename_i more same
          have digit : '-' ∈ Text.digits whole := by
            cases digits : Text.digits whole with
            | nil => exact absurd digits (Text.digits_ne_nil whole)
            | cons first others =>
                rw [digits, List.cons_append, List.cons.injEq] at same
                exact same.1 ▸ List.mem_cons_self
          exact absurd (Text.isDigit_of_mem_digits digit) (by decide)
        · rfl
  simp only [numeral?, Numeral.chars, List.append_assoc, cut, whole?_digits whole stops,
    fraction?_fractionChars fraction behind.1 behind.2, power?_powerChars power ends,
    Option.map_some]

/-- A number begins with a minus sign or with a digit. -/
theorem numeral_starts (n : Numeral) :
    ∃ c after, n.chars = c :: after ∧ (c = '-' ∨ c.isDigit) := by
  obtain ⟨negative, whole, fraction, power⟩ := n
  cases digits : Text.digits whole with
  | nil => exact absurd digits (Text.digits_ne_nil whole)
  | cons c more =>
      have digit : c.isDigit := Text.isDigit_of_mem_digits (digits ▸ List.mem_cons_self)
      cases negative with
      | true => exact ⟨_, _, rfl, Or.inl rfl⟩
      | false => exact ⟨c, _, by simp only [Numeral.chars, digits]; rfl, Or.inr digit⟩

/-! ### Nothing but ASCII -/

theorem ascii_of_isDigit {c : Char} (digit : c.isDigit) : c.toNat < 128 := by
  simp only [Char.isDigit, Bool.and_eq_true, decide_eq_true_eq, ge_iff_le] at digit
  have most : c.toNat ≤ ('9' : Char).toNat := UInt32.le_iff_toNat_le.mp digit.2
  exact Nat.lt_of_le_of_lt most (by decide)

theorem ascii_numeral {n : Numeral} {c : Char} (member : c ∈ n.chars) : c.toNat < 128 := by
  obtain ⟨negative, whole, fraction, power⟩ := n
  simp only [Numeral.chars, List.append_assoc, List.mem_append] at member
  rcases member with sign | digit | point | exponent
  · cases negative with
    | true =>
        rw [List.mem_singleton.mp sign]
        decide
    | false => cases sign
  · exact ascii_of_isDigit (Text.isDigit_of_mem_digits digit)
  · cases fraction with
    | nil => cases point
    | cons first more =>
        rcases List.mem_cons.mp point with rfl | digit
        · decide
        · obtain ⟨origin, -, rfl⟩ := List.mem_map.mp digit
          exact ascii_of_isDigit (Text.isDigit_digitChar _)
  · cases power with
    | none => cases exponent
    | some power =>
        simp only [Numeral.powerChars, Number.Rounded.powerOf, Number.Rounded.padded,
          List.mem_cons, List.mem_append, List.mem_replicate] at exponent
        rcases exponent with rfl | sign | ⟨-, rfl⟩ | digit
        · decide
        · rw [sign]
          split <;> decide
        · decide
        · exact ascii_of_isDigit (Text.isDigit_of_mem_digits digit)

end Emplace.Json
