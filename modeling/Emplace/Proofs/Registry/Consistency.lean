import Emplace.Proofs.Registry.Matching

/-!
What the two tables of a registry have to do with each other. The index names every expected record
once, under its own last name; a record has a source where it is matched and only there. Files that
come in later change neither which paths are expected nor which of them share a last name.
-/
namespace Emplace.Registry

/-! ### The rows of the index -/

theorem mem_names_addName (other name path : String) (index : List (String × List String)) :
    other ∈ (addName name path index).map (·.1) ↔ other = name ∨ other ∈ index.map (·.1) := by
  induction index with
  | nil => simp [addName]
  | cons row rest ih =>
      obtain ⟨head, paths⟩ := row
      by_cases hit : head = name
      · subst hit
        simp [addName]
      · rw [addName, if_neg hit, List.map_cons, List.map_cons, List.mem_cons, List.mem_cons, ih]
        exact or_left_comm

theorem addName_names_nodup (name path : String) {index : List (String × List String)}
    (once : (index.map (·.1)).Nodup) : ((addName name path index).map (·.1)).Nodup := by
  induction index with
  | nil => simp [addName]
  | cons row rest ih =>
      obtain ⟨head, paths⟩ := row
      obtain ⟨fresh, later⟩ := List.nodup_cons.mp once
      by_cases hit : head = name
      · simpa [addName, hit] using once
      · rw [addName, if_neg hit, List.map_cons]
        apply List.nodup_cons.mpr
        constructor
        · rw [mem_names_addName]
          intro known
          rcases known with same | old
          · exact hit same
          · exact fresh old
        · exact ih later

theorem declareAll_names_nodup (registry : Registry) (once : (registry.index.map (·.1)).Nodup)
    (paths : List String) :
    ((paths.foldl declareOne registry).index.map (·.1)).Nodup := by
  induction paths generalizing registry with
  | nil => exact once
  | cons path rest ih =>
      apply ih (registry.declareOne path)
      unfold declareOne
      split
      · exact once
      · exact addName_names_nodup _ path once

theorem declare_names_nodup (paths : List String) :
    ((declare paths).index.map (·.1)).Nodup :=
  declareAll_names_nodup empty List.nodup_nil paths

/-- Where no last name comes twice, a row of the index is what is found under its name. -/
theorem named_of_mem {index : List (String × List String)} (once : (index.map (·.1)).Nodup)
    {name : String} {paths : List String} (row : (name, paths) ∈ index) :
    named name index = paths := by
  induction index with
  | nil => cases row
  | cons head rest ih =>
      obtain ⟨fresh, later⟩ := List.nodup_cons.mp once
      rcases List.mem_cons.mp row with rfl | below
      · simp [named]
      · have other : head.1 ≠ name := by
          rintro rfl
          exact fresh (List.mem_map_of_mem (f := (·.1)) below)
        rw [named, if_neg other]
        exact ih later below

theorem mem_of_mem_named {index : List (String × List String)} {name path : String}
    (member : path ∈ named name index) : ∃ paths, (name, paths) ∈ index ∧ path ∈ paths := by
  induction index with
  | nil => cases member
  | cons row rest ih =>
      obtain ⟨head, paths⟩ := row
      by_cases same : head = name
      · subst same
        rw [named, if_pos rfl] at member
        exact ⟨paths, List.mem_cons_self, member⟩
      · rw [named, if_neg same] at member
        obtain ⟨found, row, inside⟩ := ih member
        exact ⟨found, List.mem_cons_of_mem _ row, inside⟩

theorem mem_index_declare {declared : List String} {name : String} {paths : List String}
    (row : (name, paths) ∈ (declare declared).index) (path : String) :
    path ∈ paths ↔ path ∈ declared ∧ lastName path = name := by
  rw [← mem_named_declare, named_of_mem (declare_names_nodup declared) row]

theorem mem_indexed_declare (declared : List String) (path : String) :
    path ∈ (declare declared).index.flatMap (·.2) ↔ path ∈ declared := by
  rw [List.mem_flatMap]
  constructor
  · rintro ⟨⟨name, paths⟩, row, inside⟩
    exact ((mem_index_declare row path).mp inside).1
  · intro member
    have filed := (mem_named_declare declared (lastName path) path).mpr ⟨member, rfl⟩
    obtain ⟨paths, row, inside⟩ := mem_of_mem_named filed
    exact ⟨_, row, inside⟩

/-- No path is in the index twice, neither in one of its rows nor in two. -/
theorem indexed_declare_nodup (declared : List String) :
    ((declare declared).index.flatMap (·.2)).Nodup := by
  have names := declare_names_nodup declared
  apply List.nodup_flatMap.mpr
  constructor
  · rintro ⟨name, paths⟩ row
    have once := named_declare_nodup declared name
    rwa [named_of_mem names row] at once
  · apply (List.pairwise_map.mp names).imp_of_mem
    intro one other oneIn otherIn different path inOne inOther
    apply different
    rw [← ((mem_index_declare oneIn path).mp inOne).2, ((mem_index_declare otherIn path).mp inOther).2]

/-! ### The records -/

theorem counted_source_isSome_iff (files : List (String × Path)) :
    (counted files).2.isSome ↔
      (counted files).1 = .exact ∨ (counted files).1 = .fallback := by
  rcases files with _ | ⟨file, _ | ⟨second, more⟩⟩ <;> simp [counted]

/-- A declared path has a source exactly where files have matched it. -/
theorem verdict_source_isSome_iff (declared : List String) (files : List (String × Path))
    (path : String) : (verdict declared files path).2.isSome ↔
      (verdict declared files path).1 = .exact ∨ (verdict declared files path).1 = .fallback := by
  unfold verdict
  cases (files.filter fun file => file.1 = path).getLast? with
  | some file => simp
  | none =>
      dsimp only
      split
      · exact counted_source_isSome_iff _
      · simp

/-- A registry whose tables agree with each other and with its records. -/
structure Consistent (registry : Registry) : Prop where
  once : registry.keys.Nodup
  keyed : ∀ key record, (key, record) ∈ registry.table → record.path = key
  based : ∀ record ∈ registry.records, record.basename = lastName record.path
  names : (registry.index.map (·.1)).Nodup
  /-- The index holds every expected record once and nothing else. -/
  indexed : (registry.index.flatMap (·.2)).Perm (registry.expectedRecords.map Record.path)
  filed : ∀ name paths, (name, paths) ∈ registry.index → ∀ path ∈ paths, lastName path = name
  unique : ∀ record ∈ registry.expectedRecords, record.unique = true ↔
    ∀ other ∈ registry.expectedRecords, other.basename = record.basename → other = record
  sourced : ∀ record ∈ registry.records,
    record.source.isSome ↔ record.state = .exact ∨ record.state = .fallback
  unexpected : ∀ record ∈ registry.records, record.expected = false →
    record.state = .unmatched ∧ record.source = none

/-- What was noted of a path when it came in is still noted of it, and no path has become an expected
one. -/
structure KeepsNotes (before after : Registry) : Prop where
  kept : ∀ path record, before.record? path = some record → ∃ moved,
    after.record? path = some moved ∧ moved.expected = record.expected ∧
      moved.unique = record.unique
  fresh : ∀ path record, before.record? path = none → after.record? path = some record →
    record.expected = false

variable {declared : List String} {files more : List (String × Path)} {registry after : Registry}

theorem Tracks.mem_records (tracks : Tracks declared files registry) {record : Record}
    (member : record ∈ registry.records) :
    (∃ path ∈ declared, record = settled declared files path) ∨
      ∃ path, record = Record.ofPath path false := by
  obtain ⟨⟨key, found⟩, row, rfl⟩ := List.mem_map.mp member
  rcases (tracks.mem_table key found).mp row with ⟨known, same⟩ | ⟨_, _, same⟩
  · exact Or.inl ⟨key, known, same⟩
  · exact Or.inr ⟨key, same⟩

theorem Tracks.unique_iff (tracks : Tracks declared files registry) {record : Record}
    (member : record ∈ registry.expectedRecords) : record.unique = true ↔
      ∀ other ∈ registry.expectedRecords, other.basename = record.basename → other = record := by
  obtain ⟨path, known, rfl⟩ := (tracks.mem_expectedRecords record).mp member
  change decide (Lone declared path) = true ↔ _
  rw [decide_eq_true_iff]
  constructor
  · intro lone other otherIn base
    obtain ⟨second, secondKnown, rfl⟩ := (tracks.mem_expectedRecords other).mp otherIn
    rw [lone second secondKnown base]
  · intro single second secondKnown base
    have same := single _ ((tracks.mem_expectedRecords _).mpr ⟨second, secondKnown, rfl⟩) base
    exact congrArg Record.path same

theorem Tracks.consistent (tracks : Tracks declared files registry) : Consistent registry where
  once := tracks.once
  keyed := by
    intro key record row
    rcases (tracks.mem_table key record).mp row with ⟨_, rfl⟩ | ⟨_, _, rfl⟩ <;> rfl
  based := by
    intro record member
    rcases tracks.mem_records member with ⟨path, _, rfl⟩ | ⟨path, rfl⟩ <;> rfl
  names := by
    rw [tracks.index]
    exact declare_names_nodup declared
  indexed := by
    rw [tracks.index]
    apply (List.perm_ext_iff_of_nodup (indexed_declare_nodup declared)
      tracks.expectedRecords_once).mpr
    intro path
    rw [mem_indexed_declare, tracks.mem_paths]
  filed := by
    rw [tracks.index]
    intro name paths row path inside
    exact ((mem_index_declare row path).mp inside).2
  unique := fun record member => tracks.unique_iff member
  sourced := by
    intro record member
    rcases tracks.mem_records member with ⟨path, _, rfl⟩ | ⟨path, rfl⟩
    · exact verdict_source_isSome_iff declared files path
    · simp [Record.ofPath]
  unexpected := by
    intro record member foreign
    rcases tracks.mem_records member with ⟨path, _, rfl⟩ | ⟨path, rfl⟩
    · cases foreign
    · exact ⟨rfl, rfl⟩

/-- Whatever files come in, it is noted of the paths what was noted when they were declared. -/
theorem Tracks.keepsNotes (tracks : Tracks declared files registry)
    (later : Tracks declared (files ++ more) after) : KeepsNotes registry after where
  kept := by
    intro path record found
    rw [tracks.records] at found
    rw [later.records]
    by_cases known : path ∈ declared
    · rw [if_pos known, Option.some.injEq] at found
      subst found
      exact ⟨_, if_pos known, rfl, rfl⟩
    · rw [if_neg known] at found ⊢
      by_cases seen : path ∈ files.map (·.1)
      · rw [if_pos seen, Option.some.injEq] at found
        subst found
        rw [List.map_append, if_pos (List.mem_append_left _ seen)]
        exact ⟨_, rfl, rfl, rfl⟩
      · rw [if_neg seen] at found
        cases found
  fresh := by
    intro path record absent found
    rw [tracks.records] at absent
    rw [later.records] at found
    by_cases known : path ∈ declared
    · rw [if_pos known] at absent
      cases absent
    · rw [if_neg known] at found
      split at found
      · cases found
        rfl
      · cases found

end Emplace.Registry
