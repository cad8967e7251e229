import Emplace.Proofs.Path
import Emplace.Proofs.Registry.Matching
import Emplace.Proofs.Scan.Eligible

/-!
The verdict on a declared path in terms of the files that a walk has gathered: the file at the path
itself, else the only one with its last name where no other declared path has that name.
-/
namespace Emplace

open Disk Registry Scan

/-- What the eligible files of a tree say of a declared path. -/
inductive Judged (scan : Scan) (disk : Disk) (top : Location) (declared : List String)
    (path : String) : MatchState × Option Path → Prop where
  | own {bytes : ByteArray} : scan.Eligible disk top (Text.split '/' path) bytes →
      Judged scan disk top declared path
        (.exact, some (scan.scratch.join ⟨.here, Text.split '/' path⟩))
  | only {names : List String} {bytes : ByteArray} :
      (∀ bytes, ¬ scan.Eligible disk top (Text.split '/' path) bytes) → Lone declared path →
      scan.Eligible disk top names bytes → names.getLastD "" = lastName path →
      (∀ other more, scan.Eligible disk top other more → other.getLastD "" = lastName path →
        other = names) →
      Judged scan disk top declared path (.fallback, some (scan.scratch.join ⟨.here, names⟩))
  | several {first second : List String} {bytes more : ByteArray} :
      (∀ bytes, ¬ scan.Eligible disk top (Text.split '/' path) bytes) → Lone declared path →
      scan.Eligible disk top first bytes → first.getLastD "" = lastName path →
      scan.Eligible disk top second more → second.getLastD "" = lastName path → first ≠ second →
      Judged scan disk top declared path (.ambiguous, none)
  | missing : (∀ bytes, ¬ scan.Eligible disk top (Text.split '/' path) bytes) →
      (Lone declared path → ∀ names bytes, scan.Eligible disk top names bytes →
        names.getLastD "" ≠ lastName path) →
      Judged scan disk top declared path (.unmatched, none)

variable {scan : Scan} {disk : Disk} {top : Location} {paths : List Path}

theorem Scan.Eligible.nameable (sound : Sound disk) {names : List String} {bytes : ByteArray}
    (eligible : scan.Eligible disk top names bytes) : ∀ name ∈ names, Nameable name := by
  obtain ⟨entry, there⟩ := Option.isSome_iff_exists.mp eligible.inTree
  exact fun name member => sound.nameable there name (List.mem_append_right _ member)

theorem Scan.Eligible.lastName_text (sound : Sound disk) {names : List String} {bytes : ByteArray}
    (eligible : scan.Eligible disk top names bytes) :
    lastName (Path.mk .here names).text = names.getLastD "" := by
  have nameable := eligible.nameable sound
  rw [lastName, (normal_text eligible.below nameable).ofString, split_text eligible.below nameable]
  rfl

/-- The gathered files at a path: one where an eligible file stands there, else none. -/
theorem found_at (sound : Sound disk) (gathers : scan.Gathers disk top (fun _ => True) paths)
    (path : String) :
    (∃ bytes, scan.Eligible disk top (Text.split '/' path) bytes ∧
      ((scan.found paths).filter fun file => file.1 = path).getLast? =
        some (path, scan.scratch.join ⟨.here, Text.split '/' path⟩)) ∨
    (∀ bytes, ¬ scan.Eligible disk top (Text.split '/' path) bytes) ∧
      ((scan.found paths).filter fun file => file.1 = path).getLast? = none := by
  -- The text of a path gives its names back, so a file at the path has these names.
  have only : ∀ file ∈ (scan.found paths).filter fun file => file.1 = path,
      file = (path, scan.scratch.join ⟨.here, Text.split '/' path⟩) ∧
        ∃ bytes, scan.Eligible disk top (Text.split '/' path) bytes := by
    intro file member
    simp only [found, List.mem_filter, List.mem_map, decide_eq_true_eq] at member
    obtain ⟨⟨rel, gathered, rfl⟩, same⟩ := member
    obtain ⟨anchor, _, bytes, eligible⟩ := (gathers.members rel).mp gathered
    have names : Text.split '/' path = rel.names := by
      rw [← same, Path.eq_here anchor]
      exact split_text eligible.below (eligible.nameable sound)
    rw [names]
    rw [← Path.eq_here anchor]
    exact ⟨congrArg (·, scan.scratch.join rel) same, bytes, eligible⟩
  cases last : ((scan.found paths).filter fun file => file.1 = path).getLast? with
  | some file =>
      obtain ⟨rfl, bytes, eligible⟩ := only file (List.mem_of_getLast? last)
      exact Or.inl ⟨bytes, eligible, rfl⟩
  | none =>
      refine Or.inr ⟨fun bytes eligible => ?_, rfl⟩
      have member := (gathers.members ⟨.here, Text.split '/' path⟩).mpr
        ⟨rfl, trivial, bytes, eligible⟩
      have text : (Path.mk .here (Text.split '/' path)).text = path := by
        apply Text.split_injective
        exact split_text eligible.below (eligible.nameable sound)
      have listed : (path, scan.scratch.join ⟨.here, Text.split '/' path⟩) ∈
          (scan.found paths).filter fun file => file.1 = path := by
        simp only [found, List.mem_filter, List.mem_map, decide_eq_true_eq, and_true]
        exact ⟨_, member, by rw [text]⟩
      rw [List.getLast?_eq_none_iff.mp last] at listed
      cases listed

/-- The gathered files with the last name of a path. -/
theorem found_named (sound : Sound disk) (gathers : scan.Gathers disk top (fun _ => True) paths)
    (path : String) :
    (scan.found paths).filter (fun file => lastName file.1 = lastName path) =
      scan.found (paths.filter fun rel => rel.names.getLastD "" = lastName path) := by
  rw [found, found, List.filter_map]
  congr 1
  apply List.filter_congr
  intro rel member
  obtain ⟨anchor, _, bytes, eligible⟩ := (gathers.members rel).mp member
  have same := eligible.lastName_text sound
  rw [← Path.eq_here anchor] at same
  simp [same]

/-- The verdict of a registry that has taken the gathered files into account. -/
theorem verdict_judged (sound : Sound disk)
    (gathers : scan.Gathers disk top (fun _ => True) paths) (declared : List String)
    (path : String) :
    Judged scan disk top declared path (verdict declared (scan.found paths) path) := by
  unfold verdict
  rcases found_at sound gathers path with ⟨bytes, eligible, last⟩ | ⟨noOwn, last⟩
  · rw [last]
    exact .own eligible
  · rw [last, found_named sound gathers path]
    have candidates : ∀ names bytes, scan.Eligible disk top names bytes →
        names.getLastD "" = lastName path →
        ⟨.here, names⟩ ∈ paths.filter fun rel => rel.names.getLastD "" = lastName path := by
      intro names bytes eligible base
      rw [List.mem_filter]
      exact ⟨(gathers.members _).mpr ⟨rfl, trivial, bytes, eligible⟩, by simpa using base⟩
    by_cases lone : Lone declared path
    · dsimp only
      rw [if_pos lone]
      have members : ∀ rel ∈ paths.filter fun rel => rel.names.getLastD "" = lastName path,
          rel.anchor = .here ∧ rel.names.getLastD "" = lastName path ∧
            ∃ bytes, scan.Eligible disk top rel.names bytes := by
        intro rel member
        obtain ⟨gathered, base⟩ := List.mem_filter.mp member
        obtain ⟨anchor, _, eligible⟩ := (gathers.members rel).mp gathered
        exact ⟨anchor, by simpa using base, eligible⟩
      -- None, one or several of the gathered files have the name, and no file is gathered twice.
      have once := gathers.once.filter fun rel => rel.names.getLastD "" = lastName path
      generalize paths.filter (fun rel => rel.names.getLastD "" = lastName path) = listed at *
      rcases listed with _ | ⟨first, _ | ⟨second, more⟩⟩
      · refine .missing noOwn fun _ names bytes eligible base => ?_
        cases candidates names bytes eligible base
      · obtain ⟨anchor, base, bytes, eligible⟩ := members first List.mem_cons_self
        have judged := Judged.only noOwn lone eligible base <| by
          intro other more eligible base
          have also := candidates other more eligible base
          rw [List.mem_singleton] at also
          rw [← also]
        rw [← Path.eq_here anchor] at judged
        exact judged
      · obtain ⟨anchor, base, bytes, eligible⟩ := members first List.mem_cons_self
        obtain ⟨other, also, content, further⟩ :=
          members second (List.mem_cons_of_mem _ List.mem_cons_self)
        refine .several noOwn lone eligible base further also fun same => ?_
        have equal : first = second := by rw [Path.eq_here anchor, Path.eq_here other, same]
        rw [equal] at once
        simp at once
    · dsimp only
      rw [if_neg lone]
      exact .missing noOwn fun impossible => absurd impossible lone

end Emplace
