import Emplace.Registry
import Mathlib.Data.List.Nodup

/-!
The two tables of a registry. The records are found by their paths, and a declared path is found by
its last name; `markShared` fixes once and for all which last names are not shared.
-/
namespace Emplace.Registry

/-- The last name of a path text. -/
def lastName (path : String) : String := (Path.ofString path).basename

/-- A declared path whose last name is that of no other declared path. -/
def Lone (declared : List String) (path : String) : Prop :=
  ∀ other ∈ declared, lastName other = lastName path → other = path

instance (declared : List String) (path : String) : Decidable (Lone declared path) := by
  unfold Lone
  infer_instance

def keys (registry : Registry) : List String := registry.table.map (·.1)

/-! ### Records by path -/

theorem lookup_append_row (path key : String) (record : Record) (table : List (String × Record)) :
    lookup path (table ++ [(key, record)]) =
      (lookup path table).or (if key = path then some record else none) := by
  induction table with
  | nil => simp [lookup]
  | cons row rest ih =>
      obtain ⟨head, old⟩ := row
      by_cases same : head = path
      · simp [lookup, same]
      · simpa [lookup, same] using ih

theorem lookup_amend (path key : String) (change : Record → Record)
    (table : List (String × Record)) :
    lookup path (amend key change table) =
      if path = key then (lookup path table).map change else lookup path table := by
  induction table with
  | nil => simp [amend, lookup]
  | cons row rest ih =>
      obtain ⟨head, old⟩ := row
      by_cases hit : head = key
      · subst hit
        by_cases same : path = head
        · simp [amend, lookup, same]
        · simp [amend, lookup, same, Ne.symm same]
      · by_cases same : head = path
        · subst same
          simp [amend, lookup, hit]
        · simpa [amend, lookup, hit, same] using ih

theorem keys_amend (key : String) (change : Record → Record) (table : List (String × Record)) :
    (amend key change table).map (·.1) = table.map (·.1) := by
  induction table with
  | nil => rfl
  | cons row rest ih =>
      obtain ⟨head, old⟩ := row
      by_cases hit : head = key
      · simp [amend, hit]
      · simpa [amend, hit] using ih

theorem lookup_map_record (path : String) (change : Record → Record)
    (table : List (String × Record)) :
    lookup path (table.map fun row => (row.1, change row.2)) = (lookup path table).map change := by
  induction table with
  | nil => rfl
  | cons row rest ih =>
      by_cases same : row.1 = path
      · simp [lookup, same]
      · simpa [lookup, same] using ih

theorem lookup_isSome_iff (path : String) (table : List (String × Record)) :
    (lookup path table).isSome ↔ path ∈ table.map (·.1) := by
  induction table with
  | nil => simp [lookup]
  | cons row rest ih =>
      by_cases same : row.1 = path
      · simp [lookup, same]
      · simpa [lookup, same, Ne.symm same] using ih

/-- Where no key comes twice, the rows of a table are what is found in it. -/
theorem mem_table_iff (table : List (String × Record)) (once : (table.map (·.1)).Nodup)
    (path : String) (record : Record) :
    (path, record) ∈ table ↔ lookup path table = some record := by
  induction table with
  | nil => simp [lookup]
  | cons row rest ih =>
      obtain ⟨head, old⟩ := row
      obtain ⟨fresh, later⟩ := List.nodup_cons.mp once
      by_cases same : head = path
      · subst same
        have absent : (head, record) ∉ rest := by
          intro member
          exact fresh (List.mem_map_of_mem (f := (·.1)) member)
        simp [lookup, absent, eq_comm]
      · have other : path ≠ head := fun equal => same equal.symm
        simpa [lookup, same, other] using ih later

theorem record?_update (registry : Registry) (path key : String) (change : Record → Record) :
    (registry.update key change).record? path =
      if path = key then (registry.record? path).map change else registry.record? path :=
  lookup_amend path key change registry.table

theorem keys_update (registry : Registry) (key : String) (change : Record → Record) :
    (registry.update key change).keys = registry.keys :=
  keys_amend key change registry.table

theorem mem_keys_iff (registry : Registry) (path : String) :
    path ∈ registry.keys ↔ (registry.record? path).isSome :=
  (lookup_isSome_iff path registry.table).symm

theorem record?_notice (registry : Registry) (path rel : String) :
    (registry.notice rel).record? path =
      (registry.record? path).or (if rel = path then some (Record.ofPath rel false) else none) := by
  unfold notice
  cases known : registry.record? rel with
  | none => exact lookup_append_row path rel _ registry.table
  | some record =>
      by_cases same : rel = path
      · subst same
        simp [known]
      · simp [same]

theorem index_notice (registry : Registry) (rel : String) :
    (registry.notice rel).index = registry.index := by
  unfold notice
  split <;> rfl

theorem keys_notice_nodup (registry : Registry) (rel : String) (once : registry.keys.Nodup) :
    (registry.notice rel).keys.Nodup := by
  unfold notice
  cases known : registry.record? rel with
  | some record => exact once
  | none =>
      have fresh : rel ∉ registry.keys := by
        rw [mem_keys_iff, known]
        simp
      simpa [keys] using List.Nodup.concat fresh once

/-! ### Declared paths by last name -/

theorem named_addName (name key path : String) (index : List (String × List String)) :
    named name (addName key path index) =
      if key = name then named name index ++ [path] else named name index := by
  induction index with
  | nil =>
      by_cases same : key = name <;> simp [addName, named, same]
  | cons row rest ih =>
      obtain ⟨head, paths⟩ := row
      by_cases hit : head = key
      · subst hit
        by_cases same : head = name <;> simp [addName, named, same]
      · by_cases same : head = name
        · subst same
          simp [addName, named, hit, Ne.symm hit]
        · simpa [addName, named, hit, same] using ih

theorem mem_named_addName {name key path other : String} {index : List (String × List String)} :
    other ∈ named name (addName key path index) ↔
      other ∈ named name index ∨ key = name ∧ other = path := by
  rw [named_addName]
  by_cases here : key = name <;> simp [here]

/-- What the two tables hold once the paths in `seen` are declared, before any sharing is noted. -/
structure Holds (seen : List String) (registry : Registry) : Prop where
  records : ∀ path, registry.record? path =
    if path ∈ seen then some (Record.ofPath path true) else none
  names : ∀ name path, path ∈ named name registry.index ↔ path ∈ seen ∧ lastName path = name
  distinct : ∀ name, (named name registry.index).Nodup
  once : registry.keys.Nodup

theorem holds_empty : Holds [] empty :=
  ⟨fun _ => rfl, fun _ _ => by simp [empty, named], fun _ => List.nodup_nil, List.nodup_nil⟩

theorem Holds.again {seen : List String} {registry : Registry} (holds : Holds seen registry)
    {path : String} (known : path ∈ seen) : Holds (path :: seen) registry := by
  have same : ∀ other, other ∈ path :: seen ↔ other ∈ seen := by
    intro other
    simp only [List.mem_cons, or_iff_right_iff_imp]
    rintro rfl
    exact known
  exact ⟨fun other => by simp only [holds.records, same],
    fun name other => by simp only [holds.names, same], holds.distinct, holds.once⟩

theorem Holds.declareOne {seen : List String} {registry : Registry} (holds : Holds seen registry)
    (path : String) : Holds (path :: seen) (registry.declareOne path) := by
  by_cases known : path ∈ seen
  · have found : registry.record? path = some (Record.ofPath path true) := by
      rw [holds.records, if_pos known]
    simpa [Registry.declareOne, found] using holds.again known
  · have absent : registry.record? path = none := by
      rw [holds.records, if_neg known]
    have next : registry.declareOne path =
        ⟨registry.table ++ [(path, Record.ofPath path true)],
          addName (lastName path) path registry.index⟩ := by
      simp [Registry.declareOne, absent, lastName, Record.ofPath]
    rw [next]
    refine ⟨?records, ?names, ?distinct, ?once⟩
    case records =>
      intro other
      have old := holds.records other
      simp only [record?] at old ⊢
      rw [lookup_append_row, old]
      by_cases here : path = other
      · subst here
        simp [known]
      · simp [Ne.symm here, here]
    case names =>
      intro name other
      rw [mem_named_addName, holds.names, List.mem_cons]
      constructor
      · rintro (⟨old, base⟩ | ⟨base, rfl⟩)
        · exact ⟨Or.inr old, base⟩
        · exact ⟨Or.inl rfl, base⟩
      · rintro ⟨rfl | old, base⟩
        · exact Or.inr ⟨base, rfl⟩
        · exact Or.inl ⟨old, base⟩
    case distinct =>
      intro name
      rw [named_addName]
      split
      · -- The lists hold declared paths only, so a new one is in none of them.
        have fresh : path ∉ named name registry.index := by
          intro member
          exact known ((holds.names name path).mp member).1
        simpa using List.Nodup.concat fresh (holds.distinct name)
      · exact holds.distinct name
    case once =>
      have fresh : path ∉ registry.keys := by
        rw [mem_keys_iff, absent]
        simp
      simpa [keys] using List.Nodup.concat fresh holds.once

theorem Holds.declareAll {seen : List String} {registry : Registry} (holds : Holds seen registry)
    (paths : List String) :
    ∃ known, (∀ path, path ∈ known ↔ path ∈ seen ∨ path ∈ paths) ∧
      Holds known (paths.foldl Registry.declareOne registry) := by
  induction paths generalizing seen registry with
  | nil => exact ⟨seen, by simp, holds⟩
  | cons path rest ih =>
      obtain ⟨known, members, later⟩ := ih (holds.declareOne path)
      refine ⟨known, fun other => ?_, later⟩
      rw [members]
      simp [or_assoc, or_left_comm]

/-- The declared paths with a last name are the only ones, or there are others. -/
theorem lone_iff_length_le_one {paths : List String} {index : List (String × List String)}
    (names : ∀ name path, path ∈ named name index ↔ path ∈ paths ∧ lastName path = name)
    (distinct : ∀ name, (named name index).Nodup) {path : String} (declared : path ∈ paths) :
    (named (lastName path) index).length ≤ 1 ↔ Lone paths path := by
  have here : path ∈ named (lastName path) index := (names _ _).mpr ⟨declared, rfl⟩
  have once := distinct (lastName path)
  constructor
  · intro short other member base
    have there : other ∈ named (lastName path) index := (names _ _).mpr ⟨member, base⟩
    cases cut : named (lastName path) index with
    | nil => simp [cut] at here
    | cons head rest =>
        have empty : rest = [] := by
          simpa [cut] using short
        subst empty
        simp only [cut, List.mem_singleton] at here there
        rw [here, there]
  · intro lone
    have all : ∀ other ∈ named (lastName path) index, other = path := fun other member =>
      lone other ((names _ _).mp member).1 ((names _ _).mp member).2
    cases cut : named (lastName path) index with
    | nil => simp
    | cons head rest =>
        cases rest with
        | nil => simp
        | cons next more =>
            rw [cut] at all once
            have first := all head (by simp)
            have second := all next (by simp)
            simp [first, second] at once

theorem declare_keys_nodup (paths : List String) : (declare paths).keys.Nodup := by
  obtain ⟨known, _, holds⟩ := holds_empty.declareAll paths
  simpa [declare, markShared, keys, Function.comp_def] using holds.once

theorem mem_named_declare (paths : List String) (name path : String) :
    path ∈ named name (declare paths).index ↔ path ∈ paths ∧ lastName path = name := by
  obtain ⟨known, members, holds⟩ := holds_empty.declareAll paths
  simpa [declare, markShared, members] using holds.names name path

theorem named_declare_nodup (paths : List String) (name : String) :
    (named name (declare paths).index).Nodup := by
  obtain ⟨known, members, holds⟩ := holds_empty.declareAll paths
  exact holds.distinct name

/-- The record of a declared path before any file is found. -/
theorem record?_declare (paths : List String) (path : String) :
    (declare paths).record? path =
      if path ∈ paths then
        some { Record.ofPath path true with unique := decide (Lone paths path) }
      else none := by
  -- What is noted of sharing comes after all paths are in, so it sees the whole index.
  obtain ⟨known, members, holds⟩ := holds_empty.declareAll paths
  have old := holds.records path
  simp only [members, List.not_mem_nil, false_or] at old
  have found : (declare paths).record? path = ((paths.foldl Registry.declareOne empty).record?
      path).map fun record =>
        { record with unique := (named record.basename (declare paths).index).length ≤ 1 } :=
    lookup_map_record path (fun record =>
      { record with unique := (named record.basename (declare paths).index).length ≤ 1 }) _
  rw [found, old]
  by_cases declared : path ∈ paths
  · have shared := lone_iff_length_le_one (mem_named_declare paths) (named_declare_nodup paths)
      declared
    simp only [declared, if_true, Option.map_some, Record.ofPath, Option.some.injEq,
      Record.mk.injEq, true_and, and_true, decide_eq_decide]
    exact shared
  · simp [declared]

/-- A last name leads to a declared path alone exactly where the path shares it with no other. -/
theorem named_declare_eq_singleton_iff (paths : List String) (name path : String) :
    named name (declare paths).index = [path] ↔
      path ∈ paths ∧ lastName path = name ∧ Lone paths path := by
  constructor
  · intro single
    have member : path ∈ named name (declare paths).index := by simp [single]
    obtain ⟨declared, base⟩ := (mem_named_declare paths name path).mp member
    refine ⟨declared, base, ?_⟩
    rw [← lone_iff_length_le_one (mem_named_declare paths) (named_declare_nodup paths) declared,
      base, single]
    simp
  · rintro ⟨declared, rfl, lone⟩
    have short := (lone_iff_length_le_one (mem_named_declare paths) (named_declare_nodup paths)
      declared).mpr lone
    have member := (mem_named_declare paths (lastName path) path).mpr ⟨declared, rfl⟩
    obtain ⟨only, single⟩ : ∃ only, named (lastName path) (declare paths).index = [only] := by
      apply List.length_eq_one_iff.mp
      have positive := List.length_pos_of_mem member
      omega
    rw [single] at member ⊢
    rw [List.mem_singleton.mp member]

end Emplace.Registry
