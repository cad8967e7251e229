import Emplace.Proofs.Disk.Making

/-!
Disks that differ in nothing but the order in which their directories list the names in them. The
system gives the same answers on both, and what is made on both leaves such disks again.
-/
namespace Emplace.Disk

structure Reordered (a b : Disk) : Prop where
  same : Same a b
  names : ∀ dir, (a.names dir).Perm (b.names dir)

variable {a b disk : Disk} {path : Path} {loc : Location}

theorem Reordered.refl (disk : Disk) : Reordered disk disk :=
  ⟨.refl disk, fun _ => .refl _⟩

theorem lookup_perm {table other : List (Location × Entry)} (perm : table.Perm other)
    (once : (table.map (·.1)).Nodup) (loc : Location) : lookup loc other = lookup loc table := by
  induction perm with
  | nil => rfl
  | cons row _ ih =>
      rw [lookup, lookup, ih (List.nodup_cons.mp once).2]
  | swap first second rest =>
      have apart : second.1 ≠ first.1 := by
        intro same
        simp [same] at once
      rw [lookup, lookup, lookup, lookup]
      by_cases here : first.1 = loc
      · have there : second.1 ≠ loc := here ▸ apart
        simp [here, there]
      · simp [here]
  | trans early _ ih ihToo =>
      rw [ihToo ((early.map _).nodup_iff.mp once), ih once]

/-- The rows of a table can come in any order. -/
theorem reordered_of_perm (cwd : a.cwd = b.cwd) (perm : a.entries.Perm b.entries)
    (once : (a.entries.map (·.1)).Nodup) : Reordered a b := by
  refine ⟨⟨cwd, fun loc => ?_⟩, fun dir => perm.filterMap _⟩
  cases loc with
  | nil => rfl
  | cons name rest => exact (lookup_perm perm once (name :: rest)).symm

/-! ### Answers -/

theorem Same.holds_eq (same : Same a b) (test : Entry → Bool) (path : Path) :
    b.holds test path = a.holds test path := by
  unfold holds status
  rw [same.locate_eq]

theorem Reordered.list (reordered : Reordered a b) (path : Path) :
    (∃ cause, a.list path = .error cause ∧ b.list path = .error cause) ∨
      ∃ loc, a.list path = .ok (loc, a.names loc) ∧ b.list path = .ok (loc, b.names loc) := by
  unfold Disk.list
  rw [reordered.same.locate_eq]
  cases a.locate .target path with
  | error cause => exact Or.inl ⟨cause, rfl, rfl⟩
  | ok spot =>
      cases spot with
      | absent dir name => exact Or.inl ⟨_, rfl, rfl⟩
      | present loc entry =>
          cases entry with
          | directory => exact Or.inr ⟨loc, rfl, rfl⟩
          | _ => exact Or.inl ⟨_, rfl, rfl⟩

/-! ### Making directories -/

/-- What comes to a free place is listed last. -/
theorem names_put (entry : Entry) (free : disk.get? loc = none) (dir : Location) :
    (disk.put loc entry).names dir = disk.names dir ++ (nameIn? dir loc).toList := by
  have fresh : loc ∉ disk.entries.map (·.1) := by
    intro known
    have some := get?_isSome_of_mem known
    rw [free] at some
    cases some
  have last : ∀ table : List (Location × Entry), loc ∉ table.map (·.1) →
      assign loc entry table = table ++ [(loc, entry)] := by
    intro table
    induction table with
    | nil => exact fun _ => rfl
    | cons row rest ih =>
        intro absent
        simp only [List.map_cons, List.mem_cons, not_or] at absent
        rw [assign, if_neg (Ne.symm absent.1), ih absent.2, List.cons_append]
  simp only [names, put, last _ fresh, List.filterMap_append, List.filterMap_cons,
    List.filterMap_nil]
  cases nameIn? dir loc <;> rfl

theorem Reordered.put (reordered : Reordered a b) (entry : Entry) (free : a.get? loc = none) :
    Reordered (a.put loc entry) (b.put loc entry) := by
  have freeToo : b.get? loc = none := (reordered.same.2 loc).symm.trans free
  have below : loc ≠ [] := by
    rintro rfl
    cases free
  refine ⟨⟨reordered.same.1, fun other => ?_⟩, fun dir => ?_⟩
  · by_cases here : other = loc
    · rw [here, get?_put_same a _ below, get?_put_same b _ below]
    · rw [get?_put_other a _ here, get?_put_other b _ here]
      exact reordered.same.2 other
  · rw [names_put entry free, names_put entry freeToo]
    exact (reordered.names dir).append_right _

theorem Reordered.makeDirectory (reordered : Reordered a b) (path : Path) :
    (∃ fault, a.makeDirectory path = .error fault ∧ b.makeDirectory path = .error fault) ∨
      ∃ made other, a.makeDirectory path = .ok made ∧ b.makeDirectory path = .ok other ∧
        Reordered made other := by
  unfold Disk.makeDirectory
  rw [reordered.same.locate_eq]
  cases null : hasNull path with
  | true =>
      refine Or.inl ⟨.nullByte, ?_⟩
      cases a.locate .self path with
      | error cause => simp [answer, null]
      | ok spot => cases spot <;> simp [answer, null]
  | false =>
      cases found : a.locate .self path with
      | error cause => exact Or.inl ⟨.system ⟨cause, path.text⟩, by simp [answer, null]⟩
      | ok spot =>
          cases spot with
          | present there entry =>
              exact Or.inl ⟨.system ⟨.exists, path.text⟩, by simp [answer, null]⟩
          | absent dir name =>
              refine Or.inr ⟨_, _, ?_, ?_, reordered.put .directory (locate_absent found).2⟩
              · simp [answer, null]
              · simp [answer, null]

/-- Two ends of a making of directories: the same result on disks that differ in their order alone. -/
def EndAlike (first second : Disk × Except Fault Unit) : Prop :=
  first.2 = second.2 ∧ Reordered first.1 second.1

theorem Reordered.acceptPresent (reordered : Reordered a b) (path : Path) (fault : Fault) :
    EndAlike (a.acceptPresent path fault) (b.acceptPresent path fault) := by
  unfold Disk.acceptPresent isDirectory
  rw [reordered.same.holds_eq]
  split <;> exact ⟨rfl, reordered⟩

theorem Reordered.ensureLast (reordered : Reordered a b) (path : Path) :
    EndAlike (a.ensureLast path) (b.ensureLast path) := by
  unfold Disk.ensureLast
  rcases reordered.makeDirectory path with ⟨fault, first, second⟩ | ⟨made, other, first, second, alike⟩
  · rw [first, second]
    cases fault with
    | system e =>
        obtain ⟨cause, name⟩ := e
        cases cause with
        | noEntry => exact ⟨rfl, reordered⟩
        | _ => exact reordered.acceptPresent path _
    | _ => exact ⟨rfl, reordered⟩
  · rw [first, second]
    exact ⟨rfl, alike⟩

theorem Reordered.ensureNames (reordered : Reordered a b) (anchor : Anchor) (names : List String) :
    EndAlike (a.ensureNames anchor names) (b.ensureNames anchor names) := by
  induction names with
  | nil => exact reordered.ensureLast _
  | cons name above ih =>
      rw [Disk.ensureNames, Disk.ensureNames]
      rcases reordered.makeDirectory ⟨anchor, (name :: above).reverse⟩ with
        ⟨fault, first, second⟩ | ⟨made, other, first, second, alike⟩
      · rw [first, second]
        cases fault with
        | system e =>
            obtain ⟨cause, missing⟩ := e
            cases cause with
            | noEntry =>
                -- The directories above are made first, on both disks or on neither.
                obtain ⟨same, alike⟩ := ih
                rcases early : a.ensureNames anchor above with ⟨part, result⟩
                rcases late : b.ensureNames anchor above with ⟨other, second⟩
                rw [early, late] at same alike
                obtain rfl : result = second := same
                cases result with
                | error fault => exact ⟨rfl, alike⟩
                | ok => exact alike.ensureLast _
            | _ => exact reordered.acceptPresent _ _
        | _ => exact ⟨rfl, reordered⟩
      · rw [first, second]
        exact ⟨rfl, alike⟩

theorem Reordered.ensureDirectory (reordered : Reordered a b) (path : Path) :
    EndAlike (a.ensureDirectory path) (b.ensureDirectory path) :=
  reordered.ensureNames path.anchor path.names.reverse

end Emplace.Disk
