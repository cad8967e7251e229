import Emplace.Report
import Emplace.Proofs.Emission.Writing
import Mathlib.Algebra.BigOperators.Group.List.Lemmas
import Mathlib.Algebra.GroupWithZero.Nat
import Mathlib.Data.List.Dedup
import Mathlib.Data.List.Induction

/-!
Counting. An emission counts states and a report counts their labels, each one key at a time; both
counts are the `tally` of the records' states, which is said of a list as a whole.
-/
namespace Emplace

section Tally

variable {Key Label : Type} [DecidableEq Key] [DecidableEq Label]

/-- How often each key of a list occurs, in the order in which they first do. -/
def tally (keys : List Key) : List (Key × Nat) :=
  keys.eraseDups.map fun key => (key, keys.count key)

/-- Counts under other names. -/
def relabel (label : Key → Label) (counts : List (Key × Nat)) : List (Label × Nat) :=
  counts.map fun count => (label count.1, count.2)

theorem eraseDups_append_singleton (keys : List Key) (key : Key) :
    (keys ++ [key]).eraseDups = if key ∈ keys then keys.eraseDups else keys.eraseDups ++ [key] := by
  by_cases known : key ∈ keys <;>
    simp [List.eraseDups_append, List.removeAll, known, List.eraseDups_cons]

theorem nodup_eraseDups (keys : List Key) : keys.eraseDups.Nodup := by
  induction keys using List.reverseRecOn with
  | nil => exact List.nodup_nil
  | append_singleton keys key ih =>
      rw [eraseDups_append_singleton]
      split
      · exact ih
      · rename_i fresh
        simpa using List.Nodup.concat (fresh ∘ List.mem_eraseDups.mp) ih

theorem eraseDups_perm_dedup (keys : List Key) : keys.eraseDups.Perm keys.dedup :=
  (List.perm_ext_iff_of_nodup (nodup_eraseDups keys) (List.nodup_dedup keys)).mpr fun key => by
    rw [List.mem_eraseDups, List.mem_dedup]

theorem countOne_map {keys : List Key} (once : keys.Nodup) (key : Key) (count : Key → Nat) :
    countOne key (keys.map fun other => (other, count other)) =
      if key ∈ keys then
        keys.map fun other => (other, if other = key then count other + 1 else count other)
      else keys.map (fun other => (other, count other)) ++ [(key, 1)] := by
  induction keys with
  | nil => rfl
  | cons first rest ih =>
      obtain ⟨fresh, later⟩ := List.nodup_cons.mp once
      by_cases here : first = key
      · subst here
        have others : ∀ other ∈ rest, other ≠ first := fun other member same =>
          fresh (same ▸ member)
        have kept : rest.map (fun other => (other, count other)) =
            rest.map fun other => (other, if other = first then count other + 1 else count other) :=
          List.map_congr_left fun other member => by rw [if_neg (others other member)]
        simp [countOne, kept]
      · have known : key ∈ first :: rest ↔ key ∈ rest := by simp [Ne.symm here]
        simp only [List.map_cons, countOne, here, if_false, ih later, known]
        split <;> rfl

theorem countOne_tally (keys : List Key) (key : Key) :
    countOne key (tally keys) = tally (keys ++ [key]) := by
  rw [tally, countOne_map (nodup_eraseDups keys), tally, eraseDups_append_singleton]
  by_cases known : key ∈ keys
  · simp only [List.mem_eraseDups, known, if_true]
    refine List.map_congr_left fun other _ => ?_
    by_cases same : other = key <;> simp [same, Ne.symm]
  · simp only [List.mem_eraseDups, known, if_false, List.map_append, List.map_cons, List.map_nil]
    refine congrArg₂ (· ++ ·) (List.map_congr_left fun other member => ?_) ?_
    · have different : key ≠ other := fun same => known (same ▸ List.mem_eraseDups.mp member)
      simp [different]
    · simp [List.count_eq_zero.mpr known]

/-- Keys counted one after the other are the tally of their list. -/
theorem foldl_countOne (keys more : List Key) :
    more.foldl (fun counts key => countOne key counts) (tally keys) = tally (keys ++ more) := by
  induction more generalizing keys with
  | nil => simp
  | cons key rest ih => rw [List.foldl_cons, countOne_tally, ih, List.append_assoc]; rfl

theorem sum_tally (keys : List Key) : ((tally keys).map (·.2)).sum = keys.length := by
  have counts : (tally keys).map (·.2) = keys.eraseDups.map fun key => keys.count key := by
    simp [tally, Function.comp_def]
  rw [counts, ((eraseDups_perm_dedup keys).map _).sum_eq, List.sum_map_count_dedup_eq_length]

theorem keys_tally (keys : List Key) : (tally keys).map (·.1) = keys.eraseDups := by
  simp [tally, Function.comp_def]

theorem lookup_tally (keys : List Key) (key : Key) :
    ((tally keys).lookup key).getD 0 = keys.count key := by
  by_cases known : key ∈ keys
  · rw [tally, List.lookup_graph _ (List.mem_eraseDups.mpr known)]
    rfl
  · have absent : (tally keys).lookup key = none := by
      refine List.lookup_eq_none_iff.mpr fun count member => ?_
      obtain ⟨other, inside, rfl⟩ := List.mem_map.mp member
      have different : key ≠ other := fun same => known (same ▸ List.mem_eraseDups.mp inside)
      simpa using different
    rw [absent, List.count_eq_zero.mpr known]
    rfl

theorem countOne_relabel {label : Key → Label} (injective : Function.Injective label) (key : Key)
    (counts : List (Key × Nat)) :
    countOne (label key) (relabel label counts) = relabel label (countOne key counts) := by
  induction counts with
  | nil => rfl
  | cons count rest ih =>
      obtain ⟨other, n⟩ := count
      by_cases same : other = key
      · simp [relabel, countOne, same]
      · have different : label other ≠ label key := fun equal => same (injective equal)
        simpa [relabel, countOne, same, different] using ih

end Tally

theorem MatchState.label_inj : Function.Injective MatchState.label :=
  fun _ _ => MatchState.label_injective

namespace Report

theorem countLabel_eq (label : String) (counts : List (String × Nat)) :
    countLabel label counts = countOne label counts := by
  induction counts with
  | nil => rfl
  | cons count rest ih => simp [countLabel, countOne, ih]

theorem foldl_countLabel (records : List Record) (counts : List (MatchState × Nat)) :
    records.foldl (fun counts record => countLabel record.state.label counts)
        (relabel MatchState.label counts) =
      relabel MatchState.label
        ((records.map Record.state).foldl (fun counts state => countOne state counts) counts) := by
  induction records generalizing counts with
  | nil => rfl
  | cons record rest ih =>
      rw [List.foldl_cons, countLabel_eq, countOne_relabel MatchState.label_inj, ih]
      rfl

theorem stateCounts_eq (report : Report) :
    report.stateCounts = relabel MatchState.label (tally (report.records.map Record.state)) := by
  have counted := foldl_countLabel report.records []
  have whole := foldl_countOne [] (report.records.map Record.state)
  rw [List.nil_append] at whole
  rw [stateCounts, ← whole]
  exact counted

end Report

namespace Emission

/-- An emission that is not cut short has counted the states of all its records. -/
theorem counts_of_writeRecords {plan : Emission} {disk after : Disk} {records : List Record}
    {found result : Emitted} {notes : List Note}
    (done : plan.writeRecords disk found records = (after, notes, .ok result)) :
    result.counts =
      (records.map Record.state).foldl (fun counts state => countOne state counts)
        found.counts := by
  induction records generalizing disk found notes with
  | nil =>
      rw [writeRecords] at done
      cases done
      rfl
  | cons record rest ih =>
      rw [writeRecords] at done
      rcases outcome : plan.writeRecord disk record with ⟨next, failure | _⟩
      · rw [outcome] at done
        cases done
      · rw [outcome] at done
        rcases tail : plan.writeRecords next (Emitted.add found record) rest with
          ⟨last, more, final⟩
        simp only [tail, Prod.mk.injEq] at done
        obtain ⟨rfl, rfl, rfl⟩ := done
        exact ih tail

/-- An emission that succeeds gives the tally of the states of the declared records, none of which
is ambiguous. -/
theorem emit_eq_ok {plan : Emission} {disk : Disk} {registry : Registry}
    {counts : List (MatchState × Nat)} (done : (plan.emit disk registry).2.2 = .ok counts) :
    counts = tally (registry.expectedRecords.map Record.state) ∧
      ∀ record ∈ registry.expectedRecords, record.state ≠ .ambiguous := by
  unfold emit at done
  rcases written : plan.writeRecords disk ⟨[], []⟩ registry.expectedRecords with
    ⟨after, notes, failure | found⟩
  · rw [written] at done
    cases done
  · rw [written] at done
    cases ambiguous : found.ambiguous with
    | cons path rest => simp [ambiguous] at done
    | nil =>
        simp only [ambiguous, Except.ok.injEq] at done
        have counted := counts_of_writeRecords written
        have whole := foldl_countOne [] (registry.expectedRecords.map Record.state)
        rw [List.nil_append] at whole
        exact ⟨by rw [← done, counted, ← whole]; rfl, settled_of_writeRecords written ambiguous⟩

end Emission
end Emplace
