import Emplace.Path

/-!
The files that a run can reach, as a table from locations to entries. A location is the list of
names from the root; the root itself is always a directory. The order of the table is the order in
which a directory lists its entries, and nothing else depends on it.

Apart from a file's being a program, an entry has no access rights: every directory can be listed,
searched and written to, and every file can be read and written. Whatever the system refuses, it
refuses for the names of a path or for what they lead to.
-/
namespace Emplace

/-- The place of an entry: the names on the way from the root, outermost first. -/
abbrev Location := List String

inductive Entry where
  | directory
  | file (bytes : ByteArray) (executable : Bool)
  | link (target : String)
  | pipe

def Entry.parts : Entry → Nat × Array UInt8 × Bool × String
  | .directory => (0, #[], false, "")
  | .file bytes executable => (1, bytes.data, executable, "")
  | .link target => (2, #[], false, target)
  | .pipe => (3, #[], false, "")

theorem Entry.parts_injective {a b : Entry} (same : a.parts = b.parts) : a = b := by
  cases a <;> cases b <;> simp only [parts, Prod.mk.injEq] at same
  all_goals grind [ByteArray.ext]

instance : DecidableEq Entry := fun _ _ =>
  decidable_of_iff _ ⟨Entry.parts_injective, congrArg Entry.parts⟩

structure Disk where
  cwd : Location
  entries : List (Location × Entry)
  deriving DecidableEq

namespace Disk

def lookup (loc : Location) : List (Location × Entry) → Option Entry
  | [] => none
  | (key, entry) :: rest => if key = loc then some entry else lookup loc rest

/-- The table with `entry` at a location: in the place of the present one, else at the end. -/
def assign (loc : Location) (entry : Entry) :
    List (Location × Entry) → List (Location × Entry)
  | [] => [(loc, entry)]
  | (key, old) :: rest =>
    if key = loc then (key, entry) :: rest else (key, old) :: assign loc entry rest

def get? (disk : Disk) : Location → Option Entry
  | [] => some .directory
  | loc => lookup loc disk.entries

/-- The disk with `entry` at a location other than the root. -/
def put (disk : Disk) (loc : Location) (entry : Entry) : Disk :=
  ⟨disk.cwd, assign loc entry disk.entries⟩

/-- The disk without the entry at a location and everything below it. -/
def erase (disk : Disk) (loc : Location) : Disk :=
  ⟨disk.cwd, disk.entries.filter fun row => !loc.isPrefixOf row.1⟩

def nameIn? : Location → Location → Option String
  | [], [name] => some name
  | a :: dir, b :: loc => if a = b then nameIn? dir loc else none
  | _, _ => none

def names (disk : Disk) (dir : Location) : List String :=
  disk.entries.filterMap fun row => nameIn? dir row.1

def Same (a b : Disk) : Prop :=
  a.cwd = b.cwd ∧ ∀ loc, a.get? loc = b.get? loc

theorem lookup_assign_same (loc : Location) (entry : Entry) (table : List (Location × Entry)) :
    lookup loc (assign loc entry table) = some entry := by
  induction table with
  | nil => simp [assign, lookup]
  | cons row rest ih =>
    obtain ⟨key, old⟩ := row
    by_cases same : key = loc
    · simp [assign, lookup, same]
    · simp [assign, lookup, same, ih]

theorem lookup_assign_other {loc other : Location} (entry : Entry)
    (table : List (Location × Entry)) (different : other ≠ loc) :
    lookup other (assign loc entry table) = lookup other table := by
  induction table with
  | nil => simp [assign, lookup, different.symm]
  | cons row rest ih =>
    obtain ⟨key, old⟩ := row
    by_cases same : key = loc
    · subst same
      simp [assign, lookup, different.symm]
    · by_cases hit : key = other
      · subst hit
        simp [assign, lookup, same]
      · simp [assign, lookup, same, hit, ih]

theorem get?_put_same (disk : Disk) {loc : Location} (entry : Entry) (below : loc ≠ []) :
    (disk.put loc entry).get? loc = some entry := by
  cases loc with
  | nil => exact absurd rfl below
  | cons name rest => exact lookup_assign_same _ _ _

theorem get?_put_other (disk : Disk) {loc other : Location} (entry : Entry)
    (different : other ≠ loc) : (disk.put loc entry).get? other = disk.get? other := by
  cases other with
  | nil => rfl
  | cons name rest => exact lookup_assign_other entry disk.entries different

theorem Same.refl (disk : Disk) : Same disk disk := ⟨rfl, fun _ => rfl⟩

theorem Same.trans {a b c : Disk} (first : Same a b) (second : Same b c) : Same a c :=
  ⟨first.1.trans second.1, fun loc => (first.2 loc).trans (second.2 loc)⟩

end Disk
end Emplace
