import Emplace.Proofs.Registry.Matching

/-!
How the record of a declared path moves while files come in. A file leaves its state or moves it up,
so that an exact match stays one; but every further file at the path itself becomes its source.
-/
namespace Emplace.Registry

variable {declared : List String} {files earlier later : List (String × Path)} {path : String}

theorem rank_le_exact (state : MatchState) : state.rank ≤ MatchState.exact.rank := by
  cases state <;> decide

theorem eq_exact_of_rank_le {state : MatchState} (above : MatchState.exact.rank ≤ state.rank) :
    state = .exact := by
  cases state with
  | exact => rfl
  | _ => simp [MatchState.rank] at above

/-- One more file never moves a declared path down. -/
theorem rank_verdict_append (declared : List String) (files : List (String × Path))
    (file : String × Path) (path : String) :
    (verdict declared files path).1.rank ≤ (verdict declared (files ++ [file]) path).1.rank := by
  by_cases here : file.1 = path
  · rw [verdict_append_here declared files file here]
    exact rank_le_exact _
  · by_cases rival : Lone declared path ∧ lastName file.1 = lastName path
    · rw [verdict_append_rival declared files file here rival.1 rival.2]
      cases state : (verdict declared files path).1 with
      | unmatched => exact Nat.zero_le _
      | fallback => exact Nat.le_succ 1
      | ambiguous => simp [state]
      | exact => simp [state]
    · have same := verdict_append_other declared files file here rival
      exact Nat.le_of_eq (congrArg (·.1.rank) same.symm)

/-- No sequence of further files moves a declared path down. -/
theorem rank_verdict_of_prefix (declared : List String) (path : String)
    (order : earlier <+: later) :
    (verdict declared earlier path).1.rank ≤ (verdict declared later path).1.rank := by
  obtain ⟨rest, rfl⟩ := order
  induction rest generalizing earlier with
  | nil => simp
  | cons file rest ih =>
      have first := rank_verdict_append declared earlier file path
      have others := @ih (earlier ++ [file])
      rw [List.append_assoc, List.singleton_append] at others
      exact Nat.le_trans first others

/-- A path is matched exactly by one of the files at it. -/
theorem verdict_of_exact (exact : (verdict declared files path).1 = .exact) :
    ∃ file ∈ files, file.1 = path ∧ verdict declared files path = (.exact, some file.2) := by
  unfold verdict at exact ⊢
  cases last : (files.filter fun file => file.1 = path).getLast? with
  | some file =>
      have member := List.mem_of_getLast? last
      simp only [List.mem_filter, decide_eq_true_eq] at member
      exact ⟨file, member.1, member.2, rfl⟩
  | none =>
      simp only [last] at exact
      split at exact
      · unfold counted at exact
        split at exact <;> cases exact
      · cases exact

/-- An exact match keeps its source exactly where all files at the path are one source. -/
theorem verdict_final_iff (declared : List String) (files : List (String × Path)) (path : String) :
    (∀ earlier later, earlier <+: later → later <+: files →
      (verdict declared earlier path).1 = .exact →
      verdict declared later path = verdict declared earlier path) ↔
    ∀ one ∈ files, ∀ other ∈ files, one.1 = path → other.1 = path → one.2 = other.2 := by
  constructor
  · intro final one oneIn other otherIn oneHere otherHere
    obtain ⟨oneFront, oneRest, oneSplit⟩ := List.append_of_mem oneIn
    obtain ⟨otherFront, otherRest, otherSplit⟩ := List.append_of_mem otherIn
    have oneOrder : oneFront ++ [one] <+: files := ⟨oneRest, by simp [oneSplit]⟩
    have otherOrder : otherFront ++ [other] <+: files := ⟨otherRest, by simp [otherSplit]⟩
    have oneVerdict := verdict_append_here declared oneFront one oneHere
    have otherVerdict := verdict_append_here declared otherFront other otherHere
    -- Whichever of the two files comes first, what it leaves is still there after the other one.
    have same : verdict declared (oneFront ++ [one]) path =
        verdict declared (otherFront ++ [other]) path := by
      rcases List.prefix_or_prefix_of_prefix oneOrder otherOrder with before | behind
      · exact (final _ _ before otherOrder (by rw [oneVerdict])).symm
      · exact final _ _ behind oneOrder (by rw [otherVerdict])
    rw [oneVerdict, otherVerdict] at same
    simpa using same
  · intro single earlier later order within exact
    have rank := rank_verdict_of_prefix declared path order
    rw [exact] at rank
    have stays := eq_exact_of_rank_le rank
    obtain ⟨old, oldIn, oldHere, oldVerdict⟩ := verdict_of_exact exact
    obtain ⟨new, newIn, newHere, newVerdict⟩ := verdict_of_exact stays
    have newIn := within.subset newIn
    have oldIn := within.subset (order.subset oldIn)
    rw [newVerdict, oldVerdict, single new newIn old oldIn newHere oldHere]

theorem settled_eq_iff {files other : List (String × Path)} :
    settled declared files path = settled declared other path ↔
      verdict declared files path = verdict declared other path := by
  simp [settled, Prod.ext_iff]

theorem record?_discoverAll (member : path ∈ declared) (files : List (String × Path)) :
    ((declare declared).discoverAll files).record? path = some (settled declared files path) := by
  rw [(tracks_discoverAll declared files).records, if_pos member]

/-- While files come in, the state of a declared path only moves up from unmatched over a match by
name and an ambiguity to an exact match, where it stays. The record of an exact match stays as it is
exactly where no two of the files at the path have different sources. -/
theorem discoverAll_final_iff (declared : List String) (files : List (String × Path))
    (path : String) (member : path ∈ declared) :
    let after := fun seen => ((declare declared).discoverAll seen).record? path
    (∀ earlier later, earlier <+: later → later <+: files →
      ∃ old new, after earlier = some old ∧ after later = some new ∧
        old.state.rank ≤ new.state.rank ∧ (old.state = .exact → new.state = .exact)) ∧
    ((∀ earlier later old, earlier <+: later → later <+: files → after earlier = some old →
        old.state = .exact → after later = some old) ↔
      ∀ one ∈ files, ∀ other ∈ files, one.1 = path → other.1 = path → one.2 = other.2) := by
  intro after
  have found : ∀ seen, after seen = some (settled declared seen path) :=
    record?_discoverAll member
  constructor
  · intro earlier later order _
    have rank := rank_verdict_of_prefix declared path order
    refine ⟨_, _, found earlier, found later, rank, ?_⟩
    intro exact
    change (verdict declared earlier path).1 = .exact at exact
    rw [exact] at rank
    exact eq_exact_of_rank_le rank
  · rw [← verdict_final_iff declared files path]
    constructor
    · intro final earlier later order within exact
      have kept := final earlier later _ order within (found earlier) exact
      rw [found, Option.some.injEq] at kept
      exact settled_eq_iff.mp kept
    · intro final earlier later old order within here exact
      rw [found, Option.some.injEq] at here ⊢
      subst here
      exact settled_eq_iff.mpr (final earlier later order within exact)

/-- An ambiguity, an exact match, and files that no longer change it: the same file once more and one
that only has the last name. -/
theorem discoverAll_final_settles :
    let declared := ["a/x.go"]
    let file := fun rel : String => (rel, (Path.mk .here ["scratch"]).join (Path.ofString rel))
    let files := ["q/x.go", "r/x.go", "a/x.go", "a/x.go", "q/x.go"].map file
    let after := fun seen => ((declare declared).discoverAll seen).record? "a/x.go"
    let tied := Record.mk "a/x.go" "x.go" true true .ambiguous none
    let matched :=
      Record.mk "a/x.go" "x.go" true true .exact (some ⟨.here, ["scratch", "a", "x.go"]⟩)
    "a/x.go" ∈ declared ∧ after (files.take 2) = some tied ∧ after (files.take 3) = some matched ∧
      tied.state.rank ≤ matched.state.rank ∧ after files = some matched := by
  intro declared file files after tied matched
  have member : "a/x.go" ∈ declared := by decide
  have second : after (files.take 2) = some tied := by decide
  have third : after (files.take 3) = some matched := by decide
  obtain ⟨moves, final⟩ := discoverAll_final_iff declared files "a/x.go" member
  obtain ⟨old, new, here, there, rank, -⟩ :=
    moves (files.take 2) (files.take 3) ⟨[file "a/x.go"], rfl⟩ (List.take_prefix 3 files)
  refine ⟨member, second, third, ?_, ?_⟩
  · have before : old = tied := Option.some.inj (here.symm.trans second)
    have behind : new = matched := Option.some.inj (there.symm.trans third)
    rw [before, behind] at rank
    exact rank
  · exact final.mpr (by decide) (files.take 3) files matched (List.take_prefix 3 files)
      (List.prefix_refl files) third rfl

/-- A second file at the path of an exact match takes the place of its source. -/
theorem discoverAll_reassigns_source :
    let after := fun seen => ((declare ["x.go"]).discoverAll seen).record? "x.go"
    let first := ("x.go", Path.mk .here ["scratch", "x.go"])
    let second := ("x.go", Path.mk .here ["other", "x.go"])
    ∃ old new, after [first] = some old ∧ old.state = .exact ∧
      after [first, second] = some new ∧ new.source ≠ old.source :=
  ⟨⟨"x.go", "x.go", true, true, .exact, some ⟨.here, ["scratch", "x.go"]⟩⟩,
    ⟨"x.go", "x.go", true, true, .exact, some ⟨.here, ["other", "x.go"]⟩⟩,
    by decide, rfl, by decide, by decide⟩

end Emplace.Registry
