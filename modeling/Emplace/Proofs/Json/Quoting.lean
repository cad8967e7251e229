import Emplace.Json
import Emplace.Proofs.Digits

/-!
Reading quoted texts. Between its quotes a text is written in characters and escapes; an escape of
four hexadecimal digits is a UTF-16 unit, and two units that are the halves of a pair are one
character. Reading gives back the text that `quoted` has written, whatever follows it.
-/
namespace Emplace.Json

/-- Where a reader is in a quoted text. -/
inductive TextMode where
  | plain
  | escape
  /-- Behind the sign for a unit and some of its digits. -/
  | unit (digits : List Char)

/-- The character that a sign behind a backslash stands for. -/
def shortEscape? (c : Char) : Option Char :=
  if c = '"' ∨ c = '\\' ∨ c = '/' then some c
  else if c = 'b' then some '\x08'
  else if c = 'f' then some '\x0c'
  else if c = 'n' then some '\n'
  else if c = 'r' then some '\r'
  else if c = 't' then some '\t'
  else none

def isHigh (unit : Nat) : Bool := 0xd800 ≤ unit && unit < 0xdc00

def isLow (unit : Nat) : Bool := 0xdc00 ≤ unit && unit < 0xe000

/-- The character of two halves. -/
def paired (high low : Nat) : Char :=
  Char.ofNat (0x10000 + (high - 0xd800) * 0x400 + (low - 0xdc00))

def before (c : Char) (read : List Char × List Char) : List Char × List Char :=
  (c :: read.1, read.2)

/-- Reads a text up to its closing quote, and gives what follows as well. The first half of a pair
is kept until the second comes; a half that stays alone is no character. -/
def textFrom : Option Nat → TextMode → List Char → Option (List Char × List Char)
  | _, _, [] => none
  | pending, .plain, c :: rest =>
    if c = '\\' then textFrom pending .escape rest
    else if pending.isSome then none
    else if c = '"' then some ([], rest)
    else if c.toNat < 32 then none
    else (textFrom none .plain rest).map (before c)
  | pending, .escape, c :: rest =>
    if c = 'u' then textFrom pending (.unit []) rest
    else if pending.isSome then none
    else match shortEscape? c with
      | none => none
      | some c => (textFrom none .plain rest).map (before c)
  | pending, .unit digits, c :: rest =>
    if digits.length < 3 then textFrom pending (.unit (digits ++ [c])) rest
    else match Text.number? 16 (digits ++ [c]), pending with
      | none, _ => none
      | some unit, some high =>
        if isLow unit then (textFrom none .plain rest).map (before (paired high unit)) else none
      | some unit, none =>
        if isHigh unit then textFrom (some unit) .plain rest
        else if isLow unit then none
        else (textFrom none .plain rest).map (before (Char.ofNat unit))

/-- Reads the rest of a text whose first quote is read. -/
def text? (chars : List Char) : Option (String × List Char) :=
  (textFrom none .plain chars).map fun read => (String.ofList read.1, read.2)

/-- A unit is read from its four digits. -/
theorem textFrom_unitEscape {unit : Nat} (small : unit < 0x10000) (pending : Option Nat)
    (rest : List Char) :
    textFrom pending .plain (unitEscape unit ++ rest) = match pending with
      | some high =>
        if isLow unit then (textFrom none .plain rest).map (before (paired high unit)) else none
      | none =>
        if isHigh unit then textFrom (some unit) .plain rest
        else if isLow unit then none
        else (textFrom none .plain rest).map (before (Char.ofNat unit)) := by
  have value := Text.number?_hex 4 unit
  rw [Nat.mod_eq_of_lt (by simpa using small)] at value
  simp only [Text.hex, List.nil_append, List.cons_append] at value
  cases pending <;>
    simp [unitEscape, Text.hex, textFrom, value]

theorem toNat_not_half (c : Char) : isHigh c.toNat = false ∧ isLow c.toNat = false := by
  have valid : c.toNat < 0xd800 ∨ 0xdfff < c.toNat ∧ c.toNat < 0x110000 := c.valid
  simp only [isHigh, isLow, Bool.and_eq_false_iff, decide_eq_false_iff_not]
  omega

/-- A character beyond the first units is the one of its two halves. -/
theorem paired_halves {c : Char} (large : 0x10000 ≤ c.toNat) :
    paired (0xd800 + (c.toNat - 0x10000) / 0x400) (0xdc00 + (c.toNat - 0x10000) % 0x400) = c := by
  have whole : 0x10000 + (c.toNat - 0x10000) / 0x400 * 0x400 + (c.toNat - 0x10000) % 0x400 =
      c.toNat := by omega
  simp only [paired, Nat.add_sub_cancel_left, whole, Char.ofNat_toNat]

theorem textFrom_escaped (c : Char) (rest : List Char) :
    textFrom none .plain (escaped c ++ rest) = (textFrom none .plain rest).map (before c) := by
  unfold escaped
  split_ifs with quote backslash feed ret tab page back basic short
  · subst quote
    rfl
  · subst backslash
    rfl
  · subst feed
    rfl
  · subst ret
    rfl
  · subst tab
    rfl
  · subst page
    rfl
  · subst back
    rfl
  · have visible : ¬ c.toNat < 32 := by omega
    simp [textFrom, quote, backslash, visible]
  · obtain ⟨high, low⟩ := toNat_not_half c
    rw [textFrom_unitEscape short]
    simp only [high, low, Bool.false_eq_true, if_false, Char.ofNat_toNat]
  · have last : c.toNat < 0x110000 := by
      have valid : c.toNat < 0xd800 ∨ 0xdfff < c.toNat ∧ c.toNat < 0x110000 := c.valid
      omega
    have high : isHigh (0xd800 + (c.toNat - 0x10000) / 0x400) = true := by
      simp only [isHigh, Bool.and_eq_true, decide_eq_true_eq]
      omega
    have low : isLow (0xdc00 + (c.toNat - 0x10000) % 0x400) = true := by
      simp only [isLow, Bool.and_eq_true, decide_eq_true_eq]
      omega
    dsimp only
    rw [List.append_assoc, textFrom_unitEscape (by omega)]
    simp only [high, if_true]
    rw [textFrom_unitEscape (by omega)]
    simp only [low, if_true, paired_halves (Nat.le_of_not_lt short)]

theorem textFrom_quoted (chars rest : List Char) :
    textFrom none .plain (chars.flatMap escaped ++ '"' :: rest) = some (chars, rest) := by
  induction chars with
  | nil => rfl
  | cons c more ih =>
      rw [List.flatMap_cons, List.append_assoc, textFrom_escaped, ih]
      rfl

theorem quoted_eq (s : String) (rest : List Char) :
    quoted s ++ rest = '"' :: (s.toList.flatMap escaped ++ '"' :: rest) := by
  simp [quoted]

theorem text?_quoted (s : String) (rest : List Char) :
    text? (s.toList.flatMap escaped ++ '"' :: rest) = some (s, rest) := by
  simp [text?, textFrom_quoted]

/-! ### Nothing but ASCII -/

theorem toNat_hexDigit : ∀ n < 16, (Text.hexDigit n).toNat < 128 := by decide

theorem ascii_hex {width n : Nat} {c : Char} (member : c ∈ Text.hex width n) : c.toNat < 128 := by
  induction width generalizing n with
  | zero => cases member
  | succ width ih =>
      rcases List.mem_append.mp member with first | last
      · exact ih first
      · rw [List.mem_singleton.mp last]
        exact toNat_hexDigit _ (Nat.mod_lt n (by decide))

theorem ascii_unitEscape {unit : Nat} {c : Char} (member : c ∈ unitEscape unit) :
    c.toNat < 128 := by
  rcases List.mem_cons.mp member with rfl | member
  · decide
  · rcases List.mem_cons.mp member with rfl | member
    · decide
    · exact ascii_hex member

theorem ascii_escaped {c sign : Char} (member : sign ∈ escaped c) : sign.toNat < 128 := by
  have short : ∀ chars : List Char, (chars.all fun c => c.toNat < 128) = true → sign ∈ chars →
      sign.toNat < 128 := fun chars all inside => by simpa using List.all_eq_true.mp all sign inside
  unfold escaped at member
  split_ifs at member with quote backslash feed ret tab page back basic small
  · exact short _ rfl member
  · exact short _ rfl member
  · exact short _ rfl member
  · exact short _ rfl member
  · exact short _ rfl member
  · exact short _ rfl member
  · exact short _ rfl member
  · rw [List.mem_singleton.mp member]
    omega
  · exact ascii_unitEscape member
  · rcases List.mem_append.mp member with first | second
    · exact ascii_unitEscape first
    · exact ascii_unitEscape second

theorem ascii_between {opening closing : Char} (first : opening.toNat < 128)
    (last : closing.toNat < 128) {inside : List Char} (each : ∀ c ∈ inside, c.toNat < 128) :
    ∀ c ∈ opening :: (inside ++ [closing]), c.toNat < 128 := by
  intro c member
  rcases List.mem_cons.mp member with rfl | member
  · exact first
  · rcases List.mem_append.mp member with middle | final
    · exact each c middle
    · rw [List.mem_singleton.mp final]
      exact last

theorem ascii_quoted {s : String} {c : Char} (member : c ∈ quoted s) : c.toNat < 128 := by
  have each : ∀ c ∈ s.toList.flatMap escaped, c.toNat < 128 := by
    intro c inside
    obtain ⟨origin, -, sign⟩ := List.mem_flatMap.mp inside
    exact ascii_escaped sign
  exact ascii_between (by decide) (by decide) each c member

end Emplace.Json
