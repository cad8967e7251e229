import Emplace.Proofs.Json.Numbers
import Emplace.Proofs.Json.Quoting

/-!
Reading documents. `read?` reads any text of the format, with white space wherever it may stand;
what `render` has written is read as the document that it was written for, so that two documents are
never written alike. A written document is nothing but ASCII.
-/
namespace Emplace.Json

variable {Item : Type}

/-! ### The reader -/

def isGap (c : Char) : Bool := c = ' ' || c = '\n' || c = '\r' || c = '\t'

def skip (chars : List Char) : List Char := chars.dropWhile isGap

/-- Reads items with commas between them, up to the sign that closes them. -/
def items? (close : Char) (item? : List Char → Option (Item × List Char)) :
    Nat → List Char → Option (List Item × List Char)
  | 0, _ => none
  | count + 1, chars =>
    match item? chars with
    | none => none
    | some (item, rest) =>
      match skip rest with
      | [] => none
      | c :: rest =>
        if c = ',' then
          (items? close item? count rest).map fun read => (item :: read.1, read.2)
        else if c = close then some ([item], rest)
        else none

/-- Reads items, if there are any, up to the sign that closes them. -/
def closed? (close : Char) (item? : List Char → Option (Item × List Char)) (count : Nat)
    (chars : List Char) : Option (List Item × List Char) :=
  match skip chars with
  | [] => none
  | c :: rest => if c = close then some ([], rest) else items? close item? count chars

/-- Reads a key and its value. -/
def field? (value? : List Char → Option (Json × List Char)) (chars : List Char) :
    Option ((String × Json) × List Char) :=
  match skip chars with
  | '"' :: rest =>
    match text? rest with
    | none => none
    | some (key, rest) =>
      match skip rest with
      | ':' :: rest => (value? rest).map fun read => ((key, read.1), read.2)
      | _ => none
  | _ => none

def word? (word : List Char) (json : Json) (chars : List Char) : Option (Json × List Char) :=
  if word.isPrefixOf chars then some (json, chars.drop word.length) else none

/-- Reads a document, with `depth` as a bound on the documents inside each other and on the items
beside each other. -/
def value? : Nat → List Char → Option (Json × List Char)
  | 0, _ => none
  | depth + 1, chars =>
    match skip chars with
    | [] => none
    | c :: rest =>
      if c = '"' then (text? rest).map fun read => (.text read.1, read.2)
      else if c = '[' then
        (closed? ']' (value? depth) depth rest).map fun read => (.array read.1, read.2)
      else if c = '\x7b' then
        (closed? '\x7d' (field? (value? depth)) depth rest).map fun read => (.object read.1, read.2)
      else if c = 'n' then word? ['u', 'l', 'l'] .null rest
      else if c = 't' then word? ['r', 'u', 'e'] (.bool true) rest
      else if c = 'f' then word? ['a', 'l', 's', 'e'] (.bool false) rest
      else (numeral? (c :: rest)).map fun read => (.number read.1, read.2)

/-- The document that a text is, if it is one. -/
def read? (text : String) : Option Json :=
  match value? text.toList.length text.toList with
  | none => none
  | some (json, rest) => if skip rest = [] then some json else none

/-! ### Documents as lists -/

/-- What holds of a document because it holds of all documents in it holds of every document. -/
@[elab_as_elim]
theorem induction {motive : Json → Prop} (null : motive null) (bool : ∀ b, motive (bool b))
    (number : ∀ n, motive (number n)) (text : ∀ s, motive (text s))
    (array : ∀ items, (∀ item ∈ items, motive item) → motive (array items))
    (object : ∀ fields, (∀ field ∈ fields, motive field.2) → motive (object fields))
    (json : Json) : motive json :=
  match json with
  | .null => null
  | .bool b => bool b
  | .number n => number n
  | .text s => text s
  | .array items => array items fun item _ => induction null bool number text array object item
  | .object fields =>
    object fields fun field _ => induction null bool number text array object field.2
termination_by json
decreasing_by
  · rename_i member
    have smaller := List.sizeOf_lt_of_mem member
    simp only [Json.array.sizeOf_spec]
    omega
  · rename_i member
    have smaller := List.sizeOf_lt_of_mem member
    obtain ⟨key, value⟩ := field
    simp only [Json.object.sizeOf_spec, Prod.mk.sizeOf_spec] at smaller ⊢
    omega

/-- Items inside brackets that are `level` deep, each on a line of its own. -/
def listed (level : Nat) (write : Item → List Char) : List Item → List Char
  | [] => []
  | item :: more =>
    newline (level + 1) ++ write item
      ++ more.flatMap (fun other => ',' :: (newline (level + 1) ++ write other)) ++ newline level

def fieldText (level : Nat) (field : String × Json) : List Char :=
  quoted field.1 ++ [':', ' '] ++ chars level field.2

theorem itemChars_eq (level : Nat) (items : List Json) :
    itemChars level items =
      items.flatMap fun item => ',' :: (newline level ++ chars level item) := by
  induction items with
  | nil => rfl
  | cons item more ih => simp [itemChars, ih]

theorem fieldChars_eq (level : Nat) (fields : List (String × Json)) :
    fieldChars level fields =
      fields.flatMap fun field => ',' :: (newline level ++ fieldText level field) := by
  induction fields with
  | nil => rfl
  | cons field more ih =>
      obtain ⟨key, value⟩ := field
      simp [fieldChars, fieldText, ih]

theorem chars_array (level : Nat) (items : List Json) :
    chars level (.array items) = '[' :: (listed level (chars (level + 1)) items ++ [']']) := by
  cases items with
  | nil => rfl
  | cons item more => simp [chars, listed, itemChars_eq]

theorem chars_object (level : Nat) (fields : List (String × Json)) :
    chars level (.object fields) =
      '\x7b' :: (listed level (fieldText (level + 1)) fields ++ ['\x7d']) := by
  cases fields with
  | nil => rfl
  | cons field more =>
      obtain ⟨key, value⟩ := field
      simp [chars, listed, fieldText, fieldChars_eq]

/-! ### Reading what was written -/

theorem skip_newline (level : Nat) (chars : List Char) :
    skip (newline level ++ chars) = skip chars := by
  have gaps : ∀ c ∈ newline level, isGap c = true := by
    intro c member
    rcases List.mem_cons.mp member with rfl | blank
    · rfl
    · rw [List.eq_of_mem_replicate blank]
      rfl
  exact List.dropWhile_append_of_pos gaps

theorem skip_of_solid {c : Char} (solid : isGap c = false) (rest : List Char) :
    skip (c :: rest) = c :: rest := by
  simp [skip, solid]

theorem ends_cons {c : Char} (digit : c.isDigit = false) (others : c ≠ '.' ∧ c ≠ 'e' ∧ c ≠ 'E')
    (rest : List Char) : Ends (c :: rest) := by
  intro first starts
  cases starts
  exact ⟨digit, others⟩

theorem ends_newline (level : Nat) (rest : List Char) : Ends (newline level ++ rest) :=
  ends_cons (by decide) (by decide) _

/-- A document begins with a sign that is no white space and closes nothing. -/
theorem chars_starts (level : Nat) (json : Json) :
    ∃ c rest, chars level json = c :: rest ∧ isGap c = false ∧ c ≠ ']' := by
  cases json with
  | null => exact ⟨_, _, rfl, by decide, by decide⟩
  | bool b => cases b <;> exact ⟨_, _, rfl, by decide, by decide⟩
  | number n =>
      obtain ⟨c, after, whole, rfl | digit⟩ := numeral_starts n
      · exact ⟨_, after, whole, by decide, by decide⟩
      · refine ⟨c, after, whole, ?_, ?_⟩
        · simp only [isGap, Bool.or_eq_false_iff, decide_eq_false_iff_not]
          refine ⟨⟨⟨?_, ?_⟩, ?_⟩, ?_⟩ <;> rintro rfl <;> exact absurd digit (by decide)
        · rintro rfl
          exact absurd digit (by decide)
  | text s => exact ⟨_, _, rfl, by decide, by decide⟩
  | array items => exact ⟨_, _, chars_array level items, by decide, by decide⟩
  | object fields => exact ⟨_, _, chars_object level fields, by decide, by decide⟩

/-- Items are read where each of them is read whatever ends it. -/
theorem items?_listed {close : Char} {item? : List Char → Option (Item × List Char)}
    {write : Item → List Char} {level count : Nat} (other : close ≠ ',')
    (solid : isGap close = false) {item : Item} {more : List Item} (rest : List Char)
    (reads : ∀ x ∈ item :: more, ∀ follow, Ends follow →
      item? (newline (level + 1) ++ (write x ++ follow)) = some (x, follow))
    (enough : more.length < count) :
    items? close item? count (listed level write (item :: more) ++ close :: rest) =
      some (item :: more, rest) := by
  induction more generalizing item count with
  | nil =>
      obtain ⟨count, rfl⟩ := Nat.exists_eq_succ_of_ne_zero (Nat.ne_of_gt enough)
      have read := reads item List.mem_cons_self _ (ends_newline level (close :: rest))
      simp only [listed, List.flatMap_nil, List.append_nil, List.append_assoc]
      rw [items?, read]
      simp [skip_newline, skip_of_solid solid, other]
  | cons next more ih =>
      obtain ⟨count, rfl⟩ := Nat.exists_eq_succ_of_ne_zero (by omega : count ≠ 0)
      have later := @ih count next (fun x member => reads x (List.mem_cons_of_mem _ member))
        (by simpa [Nat.succ_le_iff] using enough)
      have comma : Ends (',' :: (listed level write (next :: more) ++ close :: rest)) :=
        ends_cons (by decide) (by decide) _
      have read := reads item List.mem_cons_self _ comma
      have whole : listed level write (item :: next :: more) ++ close :: rest =
          newline (level + 1) ++ (write item ++
            (',' :: (listed level write (next :: more) ++ close :: rest))) := by
        simp [listed]
      rw [whole, items?, read]
      simp [skip, isGap, later]

theorem closed?_listed {close : Char} {item? : List Char → Option (Item × List Char)}
    {write : Item → List Char} {level count : Nat} (other : close ≠ ',')
    (solid : isGap close = false) {items : List Item} (rest : List Char)
    (starts : ∀ x ∈ items, ∃ c after, write x = c :: after ∧ isGap c = false ∧ c ≠ close)
    (reads : ∀ x ∈ items, ∀ follow, Ends follow →
      item? (newline (level + 1) ++ (write x ++ follow)) = some (x, follow))
    (enough : items.length ≤ count) :
    closed? close item? count (listed level write items ++ close :: rest) = some (items, rest) := by
  cases items with
  | nil => simp [closed?, listed, skip_of_solid solid]
  | cons item more =>
      obtain ⟨c, after, whole, firm, open_⟩ := starts item List.mem_cons_self
      have first : ∃ after, skip (listed level write (item :: more) ++ close :: rest) =
          c :: after := by
        simp only [listed, whole, List.append_assoc, List.cons_append, skip_newline,
          skip_of_solid firm]
        exact ⟨_, rfl⟩
      obtain ⟨after, first⟩ := first
      rw [closed?, first]
      simp only [open_, if_false]
      exact items?_listed other solid rest reads (by simpa [Nat.succ_le_iff] using enough)

/-! ### Sizes -/

theorem length_le_flatMap (write : Item → List Char) {item : Item} {items : List Item}
    (member : item ∈ items) : (write item).length ≤ (items.flatMap write).length := by
  induction items with
  | nil => cases member
  | cons first more ih =>
      rw [List.flatMap_cons, List.length_append]
      rcases List.mem_cons.mp member with rfl | later
      · omega
      · have part := ih later
        omega

theorem length_le_listed (level : Nat) (write : Item → List Char) {item : Item}
    {items : List Item} (member : item ∈ items) :
    (write item).length ≤ (listed level write items).length := by
  cases items with
  | nil => cases member
  | cons first more =>
      simp only [listed, List.length_append]
      rcases List.mem_cons.mp member with rfl | later
      · omega
      · have part := length_le_flatMap (fun x => ',' :: (newline (level + 1) ++ write x)) later
        simp only [List.length_cons, List.length_append] at part
        omega

theorem length_items_le_listed (level : Nat) (write : Item → List Char) (items : List Item) :
    items.length ≤ (listed level write items).length := by
  cases items with
  | nil => simp
  | cons first more =>
      have each : more.length ≤
          (more.flatMap fun x => ',' :: (newline (level + 1) ++ write x)).length := by
        induction more with
        | nil => simp
        | cons next more ih =>
            simp only [List.flatMap_cons, List.length_append, List.length_cons]
            omega
      have line : 0 < (newline level).length := by simp [newline]
      simp only [listed, List.length_append, List.length_cons]
      omega

theorem chars_positive (level : Nat) (json : Json) : 0 < (chars level json).length := by
  obtain ⟨c, after, whole, -⟩ := chars_starts level json
  simp [whole]

/-! ### The round trip -/

theorem field?_fieldText {level : Nat} {value? : List Char → Option (Json × List Char)}
    {field : String × Json} (front : Nat) {follow : List Char}
    (reads : value? (' ' :: (chars level field.2 ++ follow)) = some (field.2, follow)) :
    field? value? (newline front ++ (fieldText level field ++ follow)) = some (field, follow) := by
  rw [field?, skip_newline, fieldText, List.append_assoc, List.append_assoc, quoted_eq,
    skip_of_solid (by decide)]
  simp [text?_quoted, skip, isGap, reads]

theorem value?_skip (depth : Nat) {front : List Char} (chars : List Char)
    (gaps : skip (front ++ chars) = skip chars) :
    value? depth (front ++ chars) = value? depth chars := by
  cases depth with
  | zero => rfl
  | succ depth => rw [value?, value?, gaps]

/-- A number is read as one: none of the signs that begin other documents begins it. -/
theorem value?_number (n : Numeral) (depth : Nat) {rest : List Char} (ends : Ends rest) :
    value? (depth + 1) (n.chars ++ rest) = some (.number n, rest) := by
  obtain ⟨c, after, whole, sign⟩ := numeral_starts n
  have solid : isGap c = false := by
    obtain ⟨first, _, same, solid, -⟩ := chars_starts 0 (.number n)
    rw [chars, whole, List.cons.injEq] at same
    exact same.1 ▸ solid
  have others : c ≠ '"' ∧ c ≠ '[' ∧ c ≠ '\x7b' ∧ c ≠ 'n' ∧ c ≠ 't' ∧ c ≠ 'f' := by
    rcases sign with rfl | digit
    · decide
    · refine ⟨?_, ?_, ?_, ?_, ?_, ?_⟩ <;> rintro rfl <;> exact absurd digit (by decide)
  obtain ⟨quote, bracket, brace, null, yes, no⟩ := others
  have read := numeral?_chars n ends
  rw [whole, List.cons_append] at read ⊢
  simp [value?, skip_of_solid solid, quote, bracket, brace, null, yes, no, read]

/-- A written document is read again, whatever ends it. -/
theorem value?_chars (json : Json) (level : Nat) {depth : Nat} {rest : List Char}
    (enough : (chars level json).length ≤ depth + 1) (ends : Ends rest) :
    value? (depth + 1) (chars level json ++ rest) = some (json, rest) := by
  induction json using induction generalizing level depth rest with
  | null => simp [chars, value?, skip, isGap, word?]
  | bool b => cases b <;> simp [chars, value?, skip, isGap, word?]
  | number n => exact value?_number n depth ends
  | text s =>
      rw [chars, quoted_eq]
      simp [value?, isGap, skip, text?_quoted]
  | array items ih =>
      rw [chars_array] at enough ⊢
      simp only [List.length_cons, List.length_append, List.length_nil] at enough
      have count := length_items_le_listed level (chars (level + 1)) items
      have read : closed? ']' (value? depth) depth
          (listed level (chars (level + 1)) items ++ ']' :: rest) = some (items, rest) := by
        refine closed?_listed (by decide) (by decide) rest (fun item _ => chars_starts _ item) ?_
          (by omega)
        intro item member follow ends
        have size := length_le_listed level (chars (level + 1)) member
        have positive := chars_positive (level + 1) item
        obtain ⟨less, rfl⟩ := Nat.exists_eq_succ_of_ne_zero (by omega : depth ≠ 0)
        rw [value?_skip _ _ (skip_newline _ _)]
        exact ih item member (level + 1) (by omega) ends
      simp [value?, skip, isGap, read]
  | object fields ih =>
      rw [chars_object] at enough ⊢
      simp only [List.length_cons, List.length_append, List.length_nil] at enough
      have count := length_items_le_listed level (fieldText (level + 1)) fields
      have starts : ∀ field ∈ fields, ∃ c after, fieldText (level + 1) field = c :: after ∧
          isGap c = false ∧ c ≠ '\x7d' :=
        fun field _ => ⟨_, _, rfl, by decide, by decide⟩
      have read : closed? '\x7d' (field? (value? depth)) depth
          (listed level (fieldText (level + 1)) fields ++ '\x7d' :: rest) =
            some (fields, rest) := by
        refine closed?_listed (by decide) (by decide) rest starts ?_ (by omega)
        intro field member follow ends
        have size := length_le_listed level (fieldText (level + 1)) member
        simp only [fieldText, List.length_append] at size
        have positive := chars_positive (level + 1) field.2
        obtain ⟨less, rfl⟩ := Nat.exists_eq_succ_of_ne_zero (by omega : depth ≠ 0)
        apply field?_fieldText
        rw [← List.singleton_append, value?_skip _ _ rfl]
        exact ih field member (level + 1) (by omega) ends
      simp [value?, skip, isGap, read]

/-- A rendered document is read as the document. -/
theorem read?_render (json : Json) : read? json.render = some json := by
  have ends : Ends [] := fun c starts => by cases starts
  obtain ⟨size, length⟩ := Nat.exists_eq_succ_of_ne_zero (Nat.ne_of_gt (chars_positive 0 json))
  have read := value?_chars json 0 (Nat.le_of_eq length) ends
  rw [List.append_nil] at read
  simp [read?, render, length, read, skip]

/-! ### Nothing but ASCII -/

theorem ascii_newline {level : Nat} {c : Char} (member : c ∈ newline level) : c.toNat < 128 := by
  rcases List.mem_cons.mp member with rfl | blank
  · decide
  · rw [List.eq_of_mem_replicate blank]
    decide

theorem ascii_listed {level : Nat} {write : Item → List Char} {items : List Item}
    (each : ∀ item ∈ items, ∀ c ∈ write item, c.toNat < 128) {c : Char}
    (member : c ∈ listed level write items) : c.toNat < 128 := by
  cases items with
  | nil => cases member
  | cons item more =>
      simp only [listed, List.mem_append, List.mem_flatMap, List.mem_cons] at member
      rcases member with ((line | first) | ⟨other, later, rfl | line | inside⟩) | line
      · exact ascii_newline line
      · exact each item List.mem_cons_self c first
      · decide
      · exact ascii_newline line
      · exact each other (List.mem_cons_of_mem _ later) c inside
      · exact ascii_newline line

theorem ascii_fieldText {level : Nat} {field : String × Json}
    (value : ∀ c ∈ chars level field.2, c.toNat < 128) :
    ∀ c ∈ fieldText level field, c.toNat < 128 := by
  intro c member
  simp only [fieldText, List.mem_append, List.mem_cons, List.not_mem_nil, or_false] at member
  rcases member with (key | rfl | rfl) | inside
  · exact ascii_quoted key
  · decide
  · decide
  · exact value c inside

theorem ascii_chars (json : Json) (level : Nat) : ∀ c ∈ chars level json, c.toNat < 128 := by
  induction json using induction generalizing level with
  | null => simp [chars]
  | bool b => cases b <;> simp [chars]
  | number n => exact fun c member => ascii_numeral member
  | text s => exact fun c member => ascii_quoted member
  | array items ih =>
      rw [chars_array]
      exact ascii_between (by decide) (by decide) fun c inside =>
        ascii_listed (fun item listed => ih item listed (level + 1)) inside
  | object fields ih =>
      rw [chars_object]
      refine ascii_between (by decide) (by decide) fun c inside =>
        ascii_listed (fun field listed => ?_) inside
      exact ascii_fieldText (ih field listed (level + 1))

end Emplace.Json
