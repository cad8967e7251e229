import Emplace.Proofs.Disk.Faults
import Emplace.Emission

/-!
Emissions and the kinds of values. Nothing that an emission does with files depends on the kind of a
value, so it only fails over one where the words of its stand-in files do.
-/
namespace Emplace

open Disk

variable {disk : Disk} {root : Path} {rel : String}

theorem Disk.settleNames_fits {follow : Trail → Trail → String → Settled} {trail : Trail}
    {names : List String} {fault : Fault}
    (failed : disk.settleNames follow trail names = .error fault) : fault.Fits := by
  induction names generalizing trail with
  | nil => cases failed
  | cons name rest ih =>
      rw [settleNames] at failed
      split at failed
      · exact ih failed
      · split at failed
        · cases failed
          exact Fault.fits_nullByte
        · dsimp only at failed
          split at failed
          · split at failed
            · exact ih failed
            · cases failed
          · exact ih failed

theorem Disk.canonical_fits {path : Path} {fault : Fault}
    (failed : disk.canonical path = .error fault) : fault.Fits := by
  unfold canonical at failed
  split at failed
  · rename_i refused
    cases failed
    exact settleNames_fits refused
  · dsimp only at failed
    split at failed
    · cases failed
      exact Fault.fits_nullByte
    · split at failed
      · cases failed
        simp [Fault.Fits]
      · cases failed

theorem targetLocation_fits (disk : Disk) (root : Path) (rel : String) :
    ¬ Misfit (targetLocation disk root rel) := by
  unfold targetLocation
  cases target : disk.canonical (root.join (Path.ofString rel)) with
  | error fault => exact mt (misfit_fault_iff fault).mp (canonical_fits target)
  | ok loc =>
      cases base : disk.canonical root with
      | error fault => exact mt (misfit_fault_iff fault).mp (canonical_fits base)
      | ok top =>
          dsimp only
          split
          · exact not_misfit_ok loc
          · exact not_misfit_reconcile _

theorem prepareTarget_fits (disk : Disk) (root : Path) (rel : String) :
    ¬ Misfit (prepareTarget disk root rel).2 := by
  have located := targetLocation_fits disk root rel
  unfold prepareTarget
  cases found : targetLocation disk root rel with
  | error failure =>
      rw [found] at located
      exact mt (misfit_error_iff failure).mp located
  | ok target =>
      dsimp only
      rcases made : disk.ensureDirectory (pathOf target).parent with ⟨next, fault | _⟩
      · exact not_misfit_blame (ensureDirectory_fits (by rw [made])) _
      · exact not_misfit_ok _

namespace Emission

theorem writePlaceholder_fits {words : Placeholder} (disk : Disk) (root : Path) (rel : String)
    (fits : ∀ fault, words.content = .error fault → fault.Fits) :
    ¬ Misfit (writePlaceholder disk root words rel).2 := by
  have ready := prepareTarget_fits disk root rel
  unfold writePlaceholder
  rcases prepared : prepareTarget disk root rel with ⟨next, failure | path⟩
  · rw [prepared] at ready
    exact mt (misfit_error_iff failure).mp ready
  · cases content : words.content with
    | error fault => exact mt (misfit_fault_iff fault).mp (fits fault content)
    | ok text =>
        dsimp only
        cases written : next.writeBytes path text.toUTF8 with
        | ok after => exact not_misfit_ok ()
        | error fault => exact not_misfit_blame (answer_fits written) _

theorem copySource_fits (disk : Disk) (root : Path) (source : Option Path) (rel : String) :
    ¬ Misfit (copySource disk root source rel).2 := by
  have ready := prepareTarget_fits disk root rel
  unfold copySource
  cases source with
  | none => exact not_misfit_reconcile _
  | some file =>
      dsimp only
      rcases prepared : prepareTarget disk root rel with ⟨next, failure | path⟩
      · rw [prepared] at ready
        exact mt (misfit_error_iff failure).mp ready
      · dsimp only
        cases read : next.readBytes file with
        | error fault => exact not_misfit_blame (answer_fits read) _
        | ok bytes =>
            dsimp only
            cases written : next.writeBytes path bytes with
            | ok after => exact not_misfit_ok ()
            | error fault => exact not_misfit_blame (answer_fits written) _

variable {plan : Emission}

theorem writeRecord_fits (fits : ∀ fault, plan.words.content = .error fault → fault.Fits)
    (disk : Disk) (record : Record) : ¬ Misfit (plan.writeRecord disk record).2 := by
  unfold writeRecord
  cases record.state with
  | ambiguous => exact not_misfit_ok ()
  | unmatched => exact writePlaceholder_fits disk _ _ fits
  | exact => exact copySource_fits disk _ _ _
  | fallback => exact copySource_fits disk _ _ _

theorem writeRecords_fits (fits : ∀ fault, plan.words.content = .error fault → fault.Fits)
    (disk : Disk) (found : Emitted) (records : List Record) :
    ¬ Misfit (plan.writeRecords disk found records).2.2 := by
  induction records generalizing disk found with
  | nil => exact not_misfit_ok found
  | cons record rest ih =>
      have here := writeRecord_fits fits disk record
      rw [writeRecords]
      rcases outcome : plan.writeRecord disk record with ⟨next, failure | _⟩
      · rw [outcome] at here
        exact mt (misfit_error_iff failure).mp here
      · exact ih next (Emitted.add found record)

theorem emit_fits (fits : ∀ fault, plan.words.content = .error fault → fault.Fits) (disk : Disk)
    (registry : Registry) : ¬ Misfit (plan.emit disk registry).2.2 := by
  have written := writeRecords_fits fits disk ⟨[], []⟩ registry.expectedRecords
  unfold emit
  rcases outcome : plan.writeRecords disk ⟨[], []⟩ registry.expectedRecords with
    ⟨after, notes, failure | found⟩
  · rw [outcome] at written
    exact mt (misfit_error_iff failure).mp written
  · dsimp only
    cases found.ambiguous with
    | nil => exact not_misfit_ok _
    | cons path more => exact not_misfit_reconcile _

end Emission
end Emplace
