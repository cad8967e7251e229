import Emplace.Proofs.Registry.Declared
import Emplace.Proofs.Sorting

/-!
What a registry holds after any sequence of found files. `verdict` says it for one declared path
without looking at the order of the tables: the last file at the path itself decides, else the files
that have its last name are counted. The invariant `Tracks` ties both tables to it, and one found
file keeps it.
-/
namespace Emplace.Registry

/-- The state and the source that files give to a declared path by their last name. -/
def counted : List (String × Path) → MatchState × Option Path
  | [] => (.unmatched, none)
  | [file] => (.fallback, some file.2)
  | _ :: _ :: _ => (.ambiguous, none)

/-- The state and the source that found files give to a declared path. -/
def verdict (declared : List String) (files : List (String × Path)) (path : String) :
    MatchState × Option Path :=
  match (files.filter fun file => file.1 = path).getLast? with
  | some file => (.exact, some file.2)
  | none =>
    if Lone declared path then counted (files.filter fun file => lastName file.1 = lastName path)
    else (.unmatched, none)

/-- The record of a declared path that `verdict` asks for. -/
def settled (declared : List String) (files : List (String × Path)) (path : String) : Record :=
  let (state, source) := verdict declared files path
  ⟨path, lastName path, true, decide (Lone declared path), state, source⟩

theorem counted_append (files : List (String × Path)) (file : String × Path) :
    counted (files ++ [file]) =
      match (counted files).1 with
      | .unmatched => (.fallback, some file.2)
      | .fallback => (.ambiguous, none)
      | _ => counted files := by
  rcases files with _ | ⟨first, _ | ⟨second, more⟩⟩ <;> rfl

theorem counted_perm {files other : List (String × Path)} (order : other.Perm files) :
    counted other = counted files := by
  rcases files with _ | ⟨first, _ | ⟨second, more⟩⟩
  · rw [List.perm_nil.mp order]
  · rw [List.perm_singleton.mp order]
  · have length := order.length_eq
    rcases other with _ | ⟨a, _ | ⟨b, rest⟩⟩
    · simp at length
    · simp at length
    · rfl

theorem verdict_nil (declared : List String) (path : String) :
    verdict declared [] path = (.unmatched, none) := by
  simp [verdict, counted]

theorem verdict_append_here (declared : List String) (files : List (String × Path))
    (file : String × Path) {path : String} (here : file.1 = path) :
    verdict declared (files ++ [file]) path = (.exact, some file.2) := by
  simp [verdict, List.filter_append, here]

theorem filter_append_other (files : List (String × Path)) (file : String × Path) {path : String}
    (there : file.1 ≠ path) :
    (files ++ [file]).filter (fun file => file.1 = path) =
      files.filter fun file => file.1 = path := by
  simp [List.filter_append, there]

theorem verdict_append_other (declared : List String) (files : List (String × Path))
    (file : String × Path) {path : String} (there : file.1 ≠ path)
    (foreign : ¬ (Lone declared path ∧ lastName file.1 = lastName path)) :
    verdict declared (files ++ [file]) path = verdict declared files path := by
  unfold verdict
  rw [filter_append_other files file there]
  by_cases lone : Lone declared path
  · have base : lastName file.1 ≠ lastName path := fun equal => foreign ⟨lone, equal⟩
    simp [List.filter_append, base]
  · simp [lone]

/-- A further file with the last name moves a path that no other one shares it with on by one. -/
theorem verdict_append_rival (declared : List String) (files : List (String × Path))
    (file : String × Path) {path : String} (there : file.1 ≠ path) (lone : Lone declared path)
    (base : lastName file.1 = lastName path) :
    verdict declared (files ++ [file]) path =
      match (verdict declared files path).1 with
      | .unmatched => (.fallback, some file.2)
      | .fallback => (.ambiguous, none)
      | _ => verdict declared files path := by
  have more : (files ++ [file]).filter (fun file => lastName file.1 = lastName path) =
      files.filter (fun file => lastName file.1 = lastName path) ++ [file] := by
    simp [List.filter_append, base]
  unfold verdict
  rw [filter_append_other files file there, more]
  cases (files.filter fun file => file.1 = path).getLast? with
  | some last => rfl
  | none =>
      simp only [lone, if_true]
      exact counted_append _ file

theorem settled_append_other (declared : List String) (files : List (String × Path))
    (file : String × Path) {path : String} (there : file.1 ≠ path)
    (foreign : ¬ (Lone declared path ∧ lastName file.1 = lastName path)) :
    settled declared (files ++ [file]) path = settled declared files path := by
  unfold settled
  rw [verdict_append_other declared files file there foreign]

/-- The record of a path that a further file counts for changes as a match by name changes it. -/
theorem settled_append_rival (declared : List String) (files : List (String × Path))
    (file : String × Path) {path : String} (there : file.1 ≠ path) (lone : Lone declared path)
    (base : lastName file.1 = lastName path) :
    settled declared (files ++ [file]) path =
      match (settled declared files path).state with
      | .unmatched => bindByName file.2 (settled declared files path)
      | .fallback => unbind (settled declared files path)
      | _ => settled declared files path := by
  have moved := verdict_append_rival declared files file there lone base
  cases state : (verdict declared files path).1 <;>
    simp [settled, moved, state, bindByName, unbind]

/-- A file that counts for one declared path leaves the records of the other ones as they are. -/
theorem settled_append_others {declared : List String} (files : List (String × Path))
    (file : String × Path) (foreign : file.1 ∉ declared) {path : String}
    (lone : Lone declared path) (base : lastName file.1 = lastName path) :
    ∀ other ∈ declared, other ≠ path →
      settled declared (files ++ [file]) other = settled declared files other := by
  intro other member different
  apply settled_append_other
  · rintro rfl
    exact foreign member
  · rintro ⟨_, sameBase⟩
    exact different (lone other member (sameBase.symm.trans base))

/-- A matched path has one of the files as its source. -/
theorem verdict_source {declared : List String} {files : List (String × Path)} {path : String}
    (matched : (verdict declared files path).1.isMatch) :
    ∃ file ∈ files, (verdict declared files path).2 = some file.2 := by
  unfold verdict at matched ⊢
  cases last : (files.filter fun file => file.1 = path).getLast? with
  | some file =>
      have member := List.mem_of_getLast? last
      exact ⟨file, List.mem_of_mem_filter member, rfl⟩
  | none =>
      simp only [last] at matched ⊢
      by_cases lone : Lone declared path
      · rw [if_pos lone] at matched ⊢
        rcases candidates : files.filter fun file => lastName file.1 = lastName path with
          _ | ⟨file, _ | ⟨second, more⟩⟩
        · simp [candidates, counted, MatchState.isMatch] at matched
        · have member : file ∈ files.filter fun file => lastName file.1 = lastName path := by
            simp [candidates]
          exact ⟨file, List.mem_of_mem_filter member, by rw [candidates, counted]⟩
        · simp [candidates, counted, MatchState.isMatch] at matched
      · rw [if_neg lone] at matched
        cases matched

/-- The invariant of a registry of `declared` paths that has taken `files` into account. -/
structure Tracks (declared : List String) (files : List (String × Path)) (registry : Registry) :
    Prop where
  records : ∀ path, registry.record? path =
    if path ∈ declared then some (settled declared files path)
    else if path ∈ files.map (·.1) then some (Record.ofPath path false)
    else none
  index : registry.index = (declare declared).index
  once : registry.keys.Nodup

theorem tracks_declare (declared : List String) : Tracks declared [] (declare declared) := by
  refine ⟨fun path => ?_, rfl, declare_keys_nodup declared⟩
  rw [record?_declare]
  simp [settled, verdict_nil, Record.ofPath, lastName]

variable {declared : List String} {files : List (String × Path)} {registry : Registry}

/-- A file counts by its last name for the declared path that alone has it, if there is one. -/
theorem byName?_eq_some_iff (records : ∀ path ∈ declared, registry.record? path =
      some (settled declared files path))
    (index : registry.index = (declare declared).index) (rel : String) (target : Record) :
    registry.byName? rel = some target ↔
      ∃ path ∈ declared, lastName rel = lastName path ∧ Lone declared path ∧
        target = settled declared files path := by
  have alone := named_declare_eq_singleton_iff declared (lastName rel)
  unfold byName?
  rw [index]
  constructor
  · intro found
    split at found
    · rename_i path single
      obtain ⟨member, base, lone⟩ := (alone path).mp single
      rw [records path member] at found
      simp only [settled, lone, decide_true, if_true, Option.some.injEq] at found
      exact ⟨path, member, base.symm, lone, by simp [settled, lone, ← found]⟩
    · cases found
  · rintro ⟨path, member, base, lone, rfl⟩
    have single := (alone path).mpr ⟨member, base.symm, lone⟩
    unfold lastName at single
    rw [single]
    simp [records path member, settled, lone]

theorem discoverByName_of_none {rel : String} (source : Path)
    (found : (registry.notice rel).byName? rel = none) :
    (registry.discoverByName rel source).1 = registry.notice rel := by
  simp [Registry.discoverByName, found]

theorem discoverByName_of_some {rel : String} {target : Record} (source : Path)
    (found : (registry.notice rel).byName? rel = some target) :
    (registry.discoverByName rel source).1 =
      match target.state with
      | .unmatched => (registry.notice rel).update target.path (bindByName source)
      | .fallback => (registry.notice rel).update target.path unbind
      | _ => registry.notice rel := by
  simp only [Registry.discoverByName, found]
  cases target.state <;> rfl

theorem Tracks.record?_notice (tracks : Tracks declared files registry) {rel : String}
    (foreign : rel ∉ declared) (source : Path) (path : String) :
    (registry.notice rel).record? path =
      if path ∈ declared then some (settled declared files path)
      else if path ∈ (files ++ [(rel, source)]).map (·.1) then some (Record.ofPath path false)
      else none := by
  rw [Registry.record?_notice, tracks.records]
  by_cases known : path ∈ declared
  · simp [known]
  · by_cases seen : path ∈ files.map (·.1)
    · simp only [known, seen, if_false, if_true, List.map_append, List.mem_append, true_or]
      rfl
    · by_cases here : rel = path
      · subst here
        simp [foreign, seen]
      · simp only [known, seen, here, Ne.symm here, if_false, List.map_append, List.map_cons,
          List.map_nil, List.mem_append, List.mem_singleton, or_self]
        rfl

/-- Noting an undeclared path is all there is to do where no verdict changes. -/
theorem Tracks.notice (tracks : Tracks declared files registry) {rel : String}
    (foreign : rel ∉ declared) (source : Path)
    (same : ∀ path ∈ declared,
      settled declared (files ++ [(rel, source)]) path = settled declared files path) :
    Tracks declared (files ++ [(rel, source)]) (registry.notice rel) := by
  refine ⟨fun path => ?_, (index_notice registry rel).trans tracks.index,
    keys_notice_nodup registry rel tracks.once⟩
  rw [tracks.record?_notice foreign source]
  by_cases member : path ∈ declared
  · simp only [member, if_true, same path member]
  · simp only [member, if_false]

/-- Where the verdict of one path changes, its record has to change in the same way. -/
theorem Tracks.notice_update (tracks : Tracks declared files registry) {rel : String}
    (foreign : rel ∉ declared) (source : Path) {path : String} (member : path ∈ declared)
    (change : Record → Record)
    (becomes : change (settled declared files path) =
      settled declared (files ++ [(rel, source)]) path)
    (others : ∀ other ∈ declared, other ≠ path →
      settled declared (files ++ [(rel, source)]) other = settled declared files other) :
    Tracks declared (files ++ [(rel, source)]) ((registry.notice rel).update path change) := by
  refine ⟨fun other => ?_, (index_notice registry rel).trans tracks.index, ?_⟩
  · rw [record?_update, tracks.record?_notice foreign source]
    by_cases here : other = path
    · subst here
      simp only [member, if_true, Option.map_some, becomes]
    · by_cases declaredToo : other ∈ declared
      · simp only [here, declaredToo, if_false, if_true, others other declaredToo here]
      · simp only [here, declaredToo, if_false]
  · rw [keys_update]
    exact keys_notice_nodup registry rel tracks.once

/-- A file that counts for a path by its last name moves the record of that path and no other. -/
theorem Tracks.discoverByName_rival (tracks : Tracks declared files registry) {rel : String}
    (foreign : rel ∉ declared) (source : Path) {path : String} (member : path ∈ declared)
    (base : lastName rel = lastName path) (lone : Lone declared path)
    (found : (registry.notice rel).byName? rel = some (settled declared files path)) :
    Tracks declared (files ++ [(rel, source)]) (registry.discoverByName rel source).1 := by
  have elsewhere : rel ≠ path := by
    rintro rfl
    exact foreign member
  have moved := settled_append_rival declared files (rel, source) elsewhere lone base
  have others := settled_append_others files (rel, source) foreign lone base
  -- Where the path is matched exactly or ambiguous already, no verdict changes at all.
  have unchanged : settled declared (files ++ [(rel, source)]) path =
        settled declared files path →
      Tracks declared (files ++ [(rel, source)]) (registry.notice rel) := by
    intro same
    apply tracks.notice foreign source
    intro other declaredToo
    by_cases here : other = path
    · rw [here, same]
    · exact others other declaredToo here
  rw [discoverByName_of_some source found]
  cases state : (settled declared files path).state with
  | unmatched =>
      simp only [state] at moved ⊢
      exact tracks.notice_update foreign source member _ moved.symm others
  | fallback =>
      simp only [state] at moved ⊢
      exact tracks.notice_update foreign source member _ moved.symm others
  | exact =>
      simp only [state] at moved ⊢
      exact unchanged moved
  | ambiguous =>
      simp only [state] at moved ⊢
      exact unchanged moved

/-- A file that is at no declared path counts by its last name. -/
theorem Tracks.discoverByName (tracks : Tracks declared files registry) {rel : String}
    (foreign : rel ∉ declared) (source : Path) :
    Tracks declared (files ++ [(rel, source)]) (registry.discoverByName rel source).1 := by
  have known : ∀ path ∈ declared, (registry.notice rel).record? path =
      some (settled declared files path) := fun path member => by
    rw [tracks.record?_notice foreign source, if_pos member]
  have target := byName?_eq_some_iff known ((index_notice registry rel).trans tracks.index) rel
  cases found : (registry.notice rel).byName? rel with
  | none =>
      rw [discoverByName_of_none source found]
      apply tracks.notice foreign source
      intro path member
      apply settled_append_other
      · rintro rfl
        exact foreign member
      · rintro ⟨lone, base⟩
        have present := (target _).mpr ⟨path, member, base, lone, rfl⟩
        rw [found] at present
        cases present
  | some record =>
      obtain ⟨path, member, base, lone, rfl⟩ := (target record).mp found
      exact tracks.discoverByName_rival foreign source member base lone found

theorem Tracks.discover (tracks : Tracks declared files registry) (rel : String) (source : Path) :
    Tracks declared (files ++ [(rel, source)]) (registry.discover rel source).1 := by
  -- A file at a declared path is bound to it, whatever its record says; any other one is looked up
  -- by its last name.
  by_cases member : rel ∈ declared
  · have found : registry.record? rel = some (settled declared files rel) := by
      rw [tracks.records, if_pos member]
    have result : (registry.discover rel source).1 = registry.update rel (bindExact source) := by
      simp [Registry.discover, found, settled]
    rw [result]
    refine ⟨fun path => ?_, tracks.index, by rw [keys_update]; exact tracks.once⟩
    rw [record?_update, tracks.records]
    by_cases here : path = rel
    · subst here
      simp [member, settled, bindExact, verdict_append_here]
    · by_cases known : path ∈ declared
      · have apart : ¬ (Lone declared path ∧ lastName rel = lastName path) := by
          rintro ⟨lone, base⟩
          exact here (lone rel member base).symm
        simp only [here, known, if_false, if_true]
        rw [settled_append_other declared files (rel, source) (Ne.symm here) apart]
      · simp only [here, known, if_false, List.map_append, List.map_cons, List.map_nil,
          List.mem_append, List.mem_singleton, or_false]
  · have result : registry.discover rel source = registry.discoverByName rel source := by
      unfold Registry.discover
      cases found : registry.record? rel with
      | none => rfl
      | some record =>
          have unexpected : record.expected = false := by
            rw [tracks.records, if_neg member] at found
            split at found
            · simp only [Option.some.injEq] at found
              simp [← found, Record.ofPath]
            · cases found
          simp [unexpected]
    rw [result]
    exact tracks.discoverByName member source

theorem Tracks.discoverAll (tracks : Tracks declared files registry)
    (more : List (String × Path)) :
    Tracks declared (files ++ more) (registry.discoverAll more) := by
  induction more generalizing files registry with
  | nil => simpa [Registry.discoverAll] using tracks
  | cons file rest ih =>
      have later := ih (tracks.discover file.1 file.2)
      simpa [Registry.discoverAll] using later

/-- Every registry that found files lead to from declared paths is described by `verdict`. -/
theorem tracks_discoverAll (declared : List String) (files : List (String × Path)) :
    Tracks declared files ((declare declared).discoverAll files) := by
  simpa using (tracks_declare declared).discoverAll files

theorem Tracks.mem_table (tracks : Tracks declared files registry) (path : String)
    (record : Record) : (path, record) ∈ registry.table ↔
      path ∈ declared ∧ record = settled declared files path ∨
      path ∉ declared ∧ path ∈ files.map (·.1) ∧ record = Record.ofPath path false := by
  rw [mem_table_iff _ tracks.once]
  have row := tracks.records path
  rw [record?] at row
  rw [row]
  by_cases member : path ∈ declared
  · simp [member, eq_comm]
  · by_cases seen : path ∈ files.map (·.1)
    · simp only [member, seen, if_false, if_true, Option.some.injEq, false_and, not_false_eq_true,
        true_and, false_or, eq_comm]
    · simp only [member, seen, if_false, false_and, and_false, or_false, reduceCtorEq]

/-- The records that outputs are written for are those of the declared paths. -/
theorem Tracks.mem_expectedRecords (tracks : Tracks declared files registry) (record : Record) :
    record ∈ registry.expectedRecords ↔
      ∃ path ∈ declared, record = settled declared files path := by
  rw [expectedRecords, (Sorting.sortBy_perm _ _).mem_iff, List.mem_filter, Registry.records,
    List.mem_map]
  constructor
  · rintro ⟨⟨⟨path, other⟩, row, rfl⟩, expected⟩
    rcases (tracks.mem_table path other).mp row with ⟨member, same⟩ | ⟨_, _, rfl⟩
    · exact ⟨path, member, same⟩
    · cases expected
  · rintro ⟨path, member, rfl⟩
    exact ⟨⟨(path, settled declared files path), (tracks.mem_table _ _).mpr (Or.inl ⟨member, rfl⟩),
      rfl⟩, rfl⟩

theorem Tracks.expectedRecords_once (tracks : Tracks declared files registry) :
    (registry.expectedRecords.map Record.path).Nodup := by
  have keys : registry.records.map Record.path = registry.keys := by
    rw [Registry.records, Registry.keys, List.map_map]
    apply List.map_congr_left
    rintro ⟨path, record⟩ row
    rcases (tracks.mem_table path record).mp row with ⟨_, rfl⟩ | ⟨_, _, rfl⟩ <;> rfl
  have order := (Sorting.sortBy_perm Record.path (registry.records.filter Record.expected)).map
    Record.path
  apply order.nodup_iff.mpr
  apply List.Nodup.sublist (List.filter_sublist.map Record.path)
  rw [keys]
  exact tracks.once

theorem Tracks.mem_paths (tracks : Tracks declared files registry) (path : String) :
    path ∈ registry.expectedRecords.map Record.path ↔ path ∈ declared := by
  rw [List.mem_map]
  constructor
  · rintro ⟨record, member, rfl⟩
    obtain ⟨path, known, rfl⟩ := (tracks.mem_expectedRecords record).mp member
    exact known
  · intro known
    exact ⟨_, (tracks.mem_expectedRecords _).mpr ⟨path, known, rfl⟩, rfl⟩

theorem Tracks.expectedRecords_ascending (tracks : Tracks declared files registry) :
    registry.expectedRecords.Pairwise fun a b => a.path < b.path := by
  have once := List.pairwise_map.mp tracks.expectedRecords_once
  have ascending := Sorting.sortBy_ascending Record.path (registry.records.filter Record.expected)
  apply (ascending.and once).imp
  rintro a b ⟨upTo, different⟩
  by_contra notBelow
  exact different (String.le_antisymm upTo (String.not_lt.mp notBelow))

/-- Where no relative path is found twice, the order in which files come does not matter. -/
theorem verdict_perm {other : List (String × Path)} (order : other.Perm files)
    (once : (files.map (·.1)).Nodup) (path : String) :
    verdict declared other path = verdict declared files path := by
  have here := order.filter fun file => file.1 = path
  have based := counted_perm (order.filter fun file => lastName file.1 = lastName path)
  unfold verdict
  rw [based]
  -- Of several files at the path the last one decides, so the order matters but for `once`.
  cases last : (files.filter fun file => file.1 = path).getLast? with
  | none =>
      have none : other.filter (fun file => file.1 = path) = [] := by
        rw [List.getLast?_eq_none_iff.mp last] at here
        exact List.perm_nil.mp here
      simp [none]
  | some file =>
      have member := List.mem_of_getLast? last
      have nonempty : other.filter (fun file => file.1 = path) ≠ [] := by
        intro empty
        rw [empty] at here
        rw [List.nil_perm.mp here] at member
        cases member
      obtain ⟨second, lastToo⟩ : ∃ second,
          (other.filter fun file => file.1 = path).getLast? = some second :=
        ⟨_, List.getLast?_eq_some_getLast nonempty⟩
      have memberToo := here.mem_iff.mp (List.mem_of_getLast? lastToo)
      simp only [List.mem_filter, decide_eq_true_eq] at member memberToo
      have same : second = file := List.inj_on_of_nodup_map once memberToo.1 member.1
        (memberToo.2.trans member.2.symm)
      simp [lastToo, same]

/-- The rows of a registry are the declared paths with their verdicts and the other paths that were
found; where no path is found twice, their order decides nothing. -/
theorem discoverAll_declare_rows (declared : List String) (files : List (String × Path)) :
    ((declare declared).discoverAll files).keys.Nodup ∧
    (∀ path record, (path, record) ∈ ((declare declared).discoverAll files).table ↔
      path ∈ declared ∧ record = settled declared files path ∨
      path ∉ declared ∧ path ∈ files.map (·.1) ∧ record = Record.ofPath path false) ∧
    (∀ other : List (String × Path), other.Perm files → (files.map (·.1)).Nodup →
      ∀ path ∈ declared, ((declare declared).discoverAll other).record? path =
        ((declare declared).discoverAll files).record? path) := by
  have tracks := tracks_discoverAll declared files
  refine ⟨tracks.once, fun path record => ?_, fun other order once path member => ?_⟩
  · exact tracks.mem_table path record
  · rw [(tracks_discoverAll declared other).records, tracks.records, if_pos member, if_pos member]
    unfold settled
    rw [verdict_perm order once]

/-- An exact match undoes an ambiguity wherever it comes, and a name that two paths share counts for
neither of them. -/
theorem discoverAll_declare_rows_reversed :
    let declared := ["a/x.go", "b/z.go", "c/z.go", "a/x.go"]
    let files := [("q/x.go", Path.mk .here ["q", "x.go"]), ("r/x.go", ⟨.here, ["r", "x.go"]⟩),
      ("a/x.go", ⟨.here, ["a", "x.go"]⟩), ("q/z.go", ⟨.here, ["q", "z.go"]⟩)]
    let registry := (declare declared).discoverAll files.reverse
    files.reverse.Perm files ∧ (files.map (·.1)).Nodup ∧ "a/x.go" ∈ declared ∧
      registry.record? "a/x.go" = ((declare declared).discoverAll files).record? "a/x.go" ∧
      (("a/x.go", settled declared files.reverse "a/x.go") ∈ registry.table) ∧
      settled declared files.reverse "a/x.go" =
        ⟨"a/x.go", "x.go", true, true, .exact, some ⟨.here, ["a", "x.go"]⟩⟩ ∧
      (("b/z.go", settled declared files.reverse "b/z.go") ∈ registry.table) ∧
      settled declared files.reverse "b/z.go" =
        ⟨"b/z.go", "z.go", true, false, .unmatched, none⟩ := by
  intro declared files registry
  have once : (files.map (·.1)).Nodup := by decide
  have member : "a/x.go" ∈ declared := by decide
  have rows := discoverAll_declare_rows declared files.reverse
  exact ⟨files.reverse_perm, once, member,
    (discoverAll_declare_rows declared files).2.2 files.reverse files.reverse_perm once _ member,
    (rows.2.1 _ _).mpr (Or.inl ⟨member, rfl⟩), by decide,
    (rows.2.1 _ _).mpr (Or.inl ⟨by decide, rfl⟩), by decide⟩

end Emplace.Registry
