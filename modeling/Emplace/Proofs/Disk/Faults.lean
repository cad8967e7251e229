import Emplace.Failure
import Emplace.Proofs.Disk.Calls

/-!
What calls on files fail with. On a path without the character that ends names it is always an answer
of the system, and a look at a path is refused only where a name or the path itself is too long.
-/
namespace Emplace

/-- A value, or an error that the reconciliation raises itself. -/
def Reported {α : Type} (result : Except Failure α) : Prop :=
  (∃ value, result = .ok value) ∨ ∃ e, result = .error (.reconcile e)

/-- A failure that no stage of the reconciliation takes for its own. -/
def Faulty {α : Type} (result : Except Failure α) : Prop := ¬ Reported result

theorem reported_iff {α : Type} (result : Except Failure α) : Reported result ↔ ¬ Faulty result :=
  not_not.symm

@[simp] theorem not_faulty_ok {α : Type} (value : α) : ¬ Faulty (.ok value) := by
  simp [Faulty, Reported]

@[simp] theorem not_faulty_reconcile {α : Type} (e : ReconcileError) :
    ¬ Faulty (.error (.reconcile e) : Except Failure α) := by
  simp [Faulty, Reported]

@[simp] theorem faulty_fault {α : Type} (fault : Fault) :
    Faulty (.error (.fault fault) : Except Failure α) := by
  simp [Faulty, Reported]

/-- What would make a result faulty that is none does not hold. -/
theorem not_of_faulty_ok_iff {α : Type} {value : α} {cause : Prop}
    (same : Faulty (.ok value) ↔ cause) : ¬ cause :=
  fun holds => not_faulty_ok value (same.mpr holds)

/-- A failure is the same whatever else a result can be. -/
theorem faulty_error_iff {α β : Type} (failure : Failure) :
    Faulty (.error failure : Except Failure α) ↔ Faulty (.error failure : Except Failure β) := by
  simp [Faulty, Reported]

/-- An answer of the system becomes an error of the stage that gets it. -/
theorem not_faulty_blame {α : Type} {fault : Fault} (system : ∃ e, fault = .system e)
    (stage : SystemError → ReconcileError) :
    ¬ Faulty (.error (fault.blame fun e => .reconcile (stage e)) : Except Failure α) := by
  obtain ⟨e, rfl⟩ := system
  exact not_faulty_reconcile (stage e)

/-- A failure over a value of a kind that an operation cannot use. -/
def Misfit {α : Type} (result : Except Failure α) : Prop := result = .error (.fault .wrongKind)

@[simp] theorem not_misfit_ok {α : Type} (value : α) : ¬ Misfit (.ok value) := by
  simp [Misfit]

@[simp] theorem not_misfit_reconcile {α : Type} (e : ReconcileError) :
    ¬ Misfit (.error (.reconcile e) : Except Failure α) := by
  simp [Misfit]

@[simp] theorem misfit_fault_iff {α : Type} (fault : Fault) :
    Misfit (.error (.fault fault) : Except Failure α) ↔ fault = .wrongKind := by
  simp [Misfit]

theorem misfit_error_iff {α β : Type} (failure : Failure) :
    Misfit (.error failure : Except Failure α) ↔ Misfit (.error failure : Except Failure β) := by
  simp [Misfit]

/-- A fault over anything but the kind of a value. -/
def Fault.Fits (fault : Fault) : Prop := fault ≠ .wrongKind

theorem Fault.fits_system (e : SystemError) : Fits (.system e) := by simp [Fits]

theorem Fault.fits_nullByte : Fits .nullByte := by simp [Fits]

theorem not_misfit_blame {α : Type} {fault : Fault} (fits : fault.Fits)
    (stage : SystemError → ReconcileError) :
    ¬ Misfit (.error (fault.blame fun e => .reconcile (stage e)) : Except Failure α) := by
  cases fault with
  | system e => exact not_misfit_reconcile (stage e)
  | wrongKind => exact absurd rfl fits
  | _ => simp [Misfit, Fault.blame]

namespace Disk

variable {disk : Disk} {path : Path}

theorem holds_fault {test : Entry → Bool} {fault : Fault}
    (failed : disk.holds test path = .error fault) : ∃ e, fault = .system e := by
  unfold holds at failed
  split at failed
  · cases failed
  · split at failed
    · cases failed
    · split at failed
      · cases failed
      · cases failed
        exact ⟨_, rfl⟩

section Kinds

/-! A kind of faults that holds the answers of the system, and the refusal of a path that it cannot
be given. -/

variable {Kind : Fault → Prop}

theorem answer_kind {α : Type} {result : Except Cause α} {fault : Fault}
    (system : ∀ e, Kind (.system e)) (null : hasNull path = true → Kind .nullByte)
    (failed : answer path result = .error fault) : Kind fault := by
  unfold answer at failed
  split at failed
  · split at failed
    · rename_i refused
      cases failed
      exact null refused
    · cases failed
  · split at failed
    · rename_i refused
      cases failed
      exact null refused
    · cases failed
      exact system _

theorem acceptPresent_kind {fault other : Fault} (system : ∀ e, Kind (.system e))
    (given : Kind fault) (failed : (disk.acceptPresent path fault).2 = .error other) :
    Kind other := by
  unfold acceptPresent at failed
  split at failed
  · rename_i refused
    cases failed
    obtain ⟨e, rfl⟩ := holds_fault refused
    exact system e
  · cases failed
  · cases failed
    exact given

theorem ensureLast_kind {fault : Fault} (system : ∀ e, Kind (.system e))
    (null : hasNull path = true → Kind .nullByte)
    (failed : (disk.ensureLast path).2 = .error fault) : Kind fault := by
  unfold ensureLast at failed
  split at failed
  · cases failed
  · cases failed
    exact system _
  · exact acceptPresent_kind system (system _) failed
  · rename_i refused
    cases failed
    exact answer_kind system null refused

theorem ensureNames_kind {anchor : Anchor} {names : List String} {fault : Fault}
    (system : ∀ e, Kind (.system e)) (null : ¬ Clear names → Kind .nullByte)
    (failed : (disk.ensureNames anchor names).2 = .error fault) : Kind fault := by
  have whole : ∀ names, (¬ Clear names → Kind .nullByte) →
      hasNull ⟨anchor, names.reverse⟩ = true → Kind .nullByte := by
    intro names null refused
    refine null fun clear => ?_
    have free : hasNull ⟨anchor, names.reverse⟩ = false :=
      hasNull_eq_false fun other member => clear other (List.mem_reverse.mp member)
    rw [free] at refused
    cases refused
  induction names generalizing fault with
  | nil => exact ensureLast_kind system (whole [] null) failed
  | cons name above ih =>
      have here := whole (name :: above) null
      rw [ensureNames] at failed
      split at failed
      · cases failed
      · split at failed
        · exact ensureLast_kind system here failed
        · rename_i refused
          cases failed
          refine ih (fun unclear => null fun clear => unclear fun other member =>
            clear other (List.mem_cons_of_mem _ member)) ?_
          rw [refused]
      · exact acceptPresent_kind system (system _) failed
      · rename_i refused
        cases failed
        exact answer_kind system here refused

theorem ensureDirectory_kind {fault : Fault} (system : ∀ e, Kind (.system e))
    (null : hasNull path = true → Kind .nullByte)
    (failed : (disk.ensureDirectory path).2 = .error fault) : Kind fault := by
  refine ensureNames_kind system (fun unclear => null ?_) failed
  by_contra free
  refine unclear fun name member => ?_
  exact (hasNull_eq_false_iff path).mp (Bool.eq_false_iff.mpr free) name
    (List.mem_reverse.mp member)

end Kinds

/-- The answers of the system. -/
def FromSystem (fault : Fault) : Prop := ∃ e, fault = .system e

theorem fromSystem (e : SystemError) : FromSystem (.system e) := ⟨e, rfl⟩

theorem answer_fault {α : Type} {result : Except Cause α} {fault : Fault}
    (clear : hasNull path = false) (failed : answer path result = .error fault) :
    ∃ e, fault = .system e :=
  answer_kind fromSystem (fun null => by simp [clear] at null) failed

theorem ensureDirectory_fault {fault : Fault} (clear : hasNull path = false)
    (failed : (disk.ensureDirectory path).2 = .error fault) : ∃ e, fault = .system e :=
  ensureDirectory_kind fromSystem (fun null => by simp [clear] at null) failed

theorem answer_fits {α : Type} {result : Except Cause α} {fault : Fault}
    (failed : answer path result = .error fault) : fault.Fits :=
  answer_kind Fault.fits_system (fun _ => Fault.fits_nullByte) failed

theorem ensureDirectory_fits {fault : Fault}
    (failed : (disk.ensureDirectory path).2 = .error fault) : fault.Fits :=
  ensureDirectory_kind Fault.fits_system (fun _ => Fault.fits_nullByte) failed

/-- A path that is looked at for an entry is refused because nothing is there, or because a name or
the path itself is too long. -/
theorem chase_target_error {links : Nat} {dir : Location} {names : List String} {cause : Cause}
    (refused : disk.chase .target links dir names = .error cause) :
    meansAbsent cause ∨ cause = .nameTooLong := by
  induction links, dir, names using chase_induct disk with
  | nil => simp [chase_nil] at refused
  | idle links dir name rest pass ih =>
      rw [chase_idle pass] at refused
      exact ih refused
  | up links dir rest ih =>
      rw [chase_up] at refused
      exact ih refused
  | ordinary links dir name rest ordinary enter follow =>
      rw [chase_ordinary ordinary] at refused
      split at refused
      · cases refused
        exact Or.inr rfl
      · split at refused
        · rename_i asks
          cases asks.1
        · split at refused
          · split at refused <;> cases refused
            exact Or.inl rfl
          · rename_i here
            exact enter here refused
          · rename_i target here
            split at refused
            · cases refused
            · split at refused
              · cases refused
                exact Or.inl rfl
              · rename_i fewer
                exact follow target fewer here rfl refused
          · split at refused <;> cases refused
            exact Or.inl rfl

theorem status_error {cause : Cause} (refused : disk.status path = .error cause) :
    meansAbsent cause ∨ cause = .nameTooLong := by
  unfold status at refused
  split at refused
  · rename_i other failed
    cases refused
    unfold locate at failed
    split at failed
    · cases failed
      exact Or.inr rfl
    · exact chase_target_error failed
  · cases refused
  · cases refused
    exact Or.inl rfl

theorem isFile_fault_iff (disk : Disk) (clear : hasNull path = false) :
    (∃ fault, disk.isFile path = .error fault) ↔ disk.status path = .error .nameTooLong := by
  unfold isFile holds
  rw [if_neg (by simp [clear])]
  cases found : disk.status path with
  | ok entry => simp
  | error cause =>
      rcases status_error found with absent | rfl
      · simp only [absent, if_true, reduceCtorEq, exists_false, false_iff, Except.error.injEq]
        rintro rfl
        cases absent
      · simp [meansAbsent]

end Disk
end Emplace
