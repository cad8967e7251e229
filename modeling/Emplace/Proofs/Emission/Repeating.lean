import Emplace.Proofs.Disk.Apart
import Emplace.Proofs.Disk.Rewriting
import Emplace.Proofs.Emission.Containment
import Emplace.Proofs.Emission.Delivering
import Emplace.Proofs.Emission.Refusing
import Emplace.Proofs.Emission.Stopping

/-!
Emitting again. On the disk that an emission has left, also one that was cut short, the same records
are written to the same targets one more time. Several of them can share a target, so the disk
changes on the way, but in the end every file holds what it held; a record that failed fails again.
-/
namespace Emplace

open Disk

/-- A failure and the one that comes in its place when the same is tried again. -/
inductive Recurs : Failure → Failure → Prop where
  | same (failure : Failure) : Recurs failure failure
  /-- Less is missing above a target by then, so the system can give another reason. -/
  | noParent (path : String) (e other : SystemError) :
      Recurs (.reconcile (.noParent path e)) (.reconcile (.noParent path other))

/-- Two results of which the second comes from trying again. -/
inductive Repeats : Except Failure Unit → Except Failure Unit → Prop where
  | returned : Repeats (.ok ()) (.ok ())
  | failed {first second : Failure} : Recurs first second → Repeats (.error first) (.error second)

theorem Repeats.refl : (result : Except Failure Unit) → Repeats result result
  | .ok () => .returned
  | .error failure => .failed (.same failure)

variable {first disk next final other : Disk} {root : Path} {base : Location} {rel : String}
  {failure : Failure}

/-! ### Targets -/

theorem targetLocation_stays (free : LinkFree first root base) (early : Grows first disk)
    (growth : Grows disk other) {target : Location}
    (accepted : targetLocation disk root rel = .ok target) :
    targetLocation other root rel = .ok target := by
  obtain ⟨taken, inside⟩ := free.target_inside early accepted
  unfold targetLocation
  rw [free.canonical_stays early growth taken inside, free.canonical_eq (early.trans growth)]
  simp [inside]

/-- A target is prepared by looking at it, once it has been prepared before. -/
theorem prepareTarget_again (free : LinkFree first root base) (early : Grows first disk)
    {path : Path} (prepared : prepareTarget disk root rel = (next, .ok path))
    (growth : Grows next other) : prepareTarget other root rel = (other, .ok path) := by
  unfold prepareTarget at prepared
  split at prepared
  · cases prepared
  · rename_i target accepted
    have grown := ensureDirectory_grows disk (pathOf target).parent
    dsimp only at prepared
    split at prepared
    · rename_i made ready
      cases prepared
      rw [ready] at grown
      obtain ⟨loc, there⟩ := ensureDirectory_eq_ok (by rw [ready])
      rw [ready] at there
      have present := ensureDirectory_present (hasNull_parent (hasNull_target accepted))
        (locate_directory_grows growth there)
      unfold prepareTarget
      rw [targetLocation_stays free early (grown.trans growth) accepted]
      simp only [present]
    · cases prepared

theorem prepareTarget_stuck (free : LinkFree first root base) (early : Grows first disk)
    (failed : prepareTarget disk root rel = (next, .error failure)) :
    ∃ again, prepareTarget next root rel = (next, .error again) ∧ Recurs failure again := by
  unfold prepareTarget at failed
  split at failed
  · -- A path that is refused leaves the disk as it is, so the call is the very same.
    rename_i refused
    cases failed
    exact ⟨failure, by simp only [prepareTarget, refused], .same failure⟩
  · rename_i target accepted
    have grown := ensureDirectory_grows disk (pathOf target).parent
    have clear := hasNull_parent (hasNull_target accepted)
    have ordinary := canonical_ordinary (free.sound.grounded.grows early)
      (targetLocation_eq_ok accepted).1
    have some : "" ∉ (pathOf target).parent.names := fun member =>
      (ordinary "" (List.mem_of_mem_dropLast member)).1 rfl
    obtain ⟨result, asked, same⟩ := ensureDirectory_again disk clear some
    dsimp only at failed
    split at failed
    · cases failed
    · rename_i part fault missing
      cases failed
      rw [missing] at grown asked same
      have system := ensureDirectory_fault clear (by rw [missing])
      cases result with
      | ok => simp at same
      | error other =>
          have systemToo := ensureDirectory_fault clear (by rw [asked])
          obtain ⟨e, rfl⟩ := system
          obtain ⟨later, rfl⟩ := systemToo
          refine ⟨.reconcile (.noParent rel later), ?_, .noParent rel e later⟩
          simp only [prepareTarget, targetLocation_stays free early grown accepted, asked,
            Fault.blame]

/-- What begins with the preparation of its target, and leaves the disk as it is where it fails after
that, fails again on the disk that it has left. -/
theorem stuck_of_prepared (free : LinkFree first root base) (growth : Grows first disk)
    {call : Disk → Disk × Except Failure Unit}
    (through : ∀ a b, prepareTarget a root rel = prepareTarget b root rel → call a = call b)
    (halts : ∀ disk next failure, prepareTarget disk root rel = (next, .error failure) →
      call disk = (next, .error failure))
    (still : ∀ disk made next path failure, prepareTarget disk root rel = (made, .ok path) →
      call disk = (next, .error failure) → next = made)
    (failed : call disk = (next, .error failure)) :
    ∃ again, call next = (next, .error again) ∧ Recurs failure again := by
  rcases prepared : prepareTarget disk root rel with ⟨made, cause | path⟩
  · rw [halts _ _ _ prepared] at failed
    cases failed
    obtain ⟨again, stuck, recurs⟩ := prepareTarget_stuck free growth prepared
    exact ⟨again, halts _ _ _ stuck, recurs⟩
  · have ready := prepareTarget_again free growth prepared (.refl made)
    obtain rfl := still _ _ _ _ _ prepared failed
    exact ⟨failure, (through _ _ (ready.trans prepared.symm)).trans failed, .same failure⟩

namespace Emission

variable {plan : Emission} {record : Record} {records : List Record}

/-! ### One record -/

theorem writePlaceholder_stuck (free : LinkFree first root base) (growth : Grows first disk)
    {words : Placeholder} (failed : writePlaceholder disk root words rel = (next, .error failure)) :
    ∃ again, writePlaceholder next root words rel = (next, .error again) ∧ Recurs failure again := by
  refine @stuck_of_prepared first disk next root base rel failure free growth
    (writePlaceholder · root words rel) ?_ ?_ ?_ failed
  · intro a b same
    simp only [writePlaceholder, same]
  · intro disk next failure refused
    simp only [writePlaceholder, refused]
  · intro disk made next path failure prepared failed
    simp only [writePlaceholder, prepared] at failed
    split at failed
    · cases failed
      rfl
    · split at failed <;> cases failed
      rfl

theorem copySource_stuck (free : LinkFree first root base) (growth : Grows first disk)
    {source : Option Path} (failed : copySource disk root source rel = (next, .error failure)) :
    ∃ again, copySource next root source rel = (next, .error again) ∧ Recurs failure again := by
  cases source with
  | none =>
      cases failed
      exact ⟨_, rfl, .same _⟩
  | some file =>
      refine @stuck_of_prepared first disk next root base rel failure free growth
        (copySource · root (some file) rel) ?_ ?_ ?_ failed
      · intro a b same
        simp only [copySource, same]
      · intro disk next failure refused
        simp only [copySource, refused]
      · intro disk made next path failure prepared failed
        simp only [copySource, prepared] at failed
        split at failed
        · cases failed
          rfl
        · split at failed <;> cases failed
          rfl

/-- A record that failed fails again, and nothing more is made for it. -/
theorem writeRecord_stuck (free : LinkFree first plan.root base)
    (same : plan.placeholderRoot = plan.root) (growth : Grows first disk)
    (failed : plan.writeRecord disk record = (next, .error failure)) :
    ∃ again, plan.writeRecord next record = (next, .error again) ∧ Recurs failure again := by
  unfold writeRecord at failed ⊢
  cases state : record.state with
  | ambiguous => simp [state] at failed
  | unmatched =>
      simp only [state, same] at failed ⊢
      exact writePlaceholder_stuck free growth failed
  | exact =>
      simp only [state] at failed ⊢
      exact copySource_stuck free growth failed
  | fallback =>
      simp only [state] at failed ⊢
      exact copySource_stuck free growth failed

theorem writeRecord_of_prepared {path : Path} {bytes : ByteArray} {made after : Disk}
    (prepared : prepareTarget disk (plan.rootOf record.state) record.path = (made, .ok path))
    (supplies : plan.Supplies made record bytes) (stored : made.writeBytes path bytes = .ok after) :
    plan.writeRecord disk record = (after, .ok ()) := by
  cases supplies with
  | standIn state content =>
      rw [state, rootOf] at prepared
      simp only [writeRecord, state, writePlaceholder, prepared, content, stored]
  | copied matched known read =>
      cases state : record.state <;> simp only [state, MatchState.isMatch, reduceCtorEq] at matched
      all_goals
        rw [state, rootOf] at prepared
        · simp only [writeRecord, state, known, copySource, prepared, read, stored]
        · simp

theorem Supplies.congr {bytes : ByteArray} (supplies : plan.Supplies disk record bytes)
    (same : ∀ source, record.source = some source →
      other.readBytes source = disk.readBytes source) : plan.Supplies other record bytes := by
  cases supplies with
  | standIn state content => exact .standIn state content
  | copied matched known read => exact .copied matched known ((same _ known).trans read)

/-- The source of a record, if it has one, is read as before while the tree at `base` is written. -/
def Fixed (disk : Disk) (base : Location) (record : Record) : Prop :=
  ∀ source, record.source = some source → ∀ later, Quiet base disk later →
    later.readBytes source = disk.readBytes source

theorem readied_quiet (free : LinkFree first root base)
    (located : first.locate .target root = .ok (.present base .directory))
    (growth : Grows first disk) {target : Location}
    (accepted : targetLocation disk root rel = .ok target) :
    Quiet base disk (readied disk target) := by
  obtain ⟨taken, inside⟩ := free.target_inside growth accepted
  exact ⟨ensureDirectory_grows disk _,
    ensureDirectory_sameOff free.sound growth (directory_of_locate free.sound located)
      (free.bare growth inside) (canonical_ordinary (free.sound.grounded.grows growth) taken)
      inside⟩

section Writing

variable (free : LinkFree first plan.root base)
  (located : first.locate .target plan.root = .ok (.present base .directory))
  (same : plan.placeholderRoot = plan.root)
include free located same

theorem writeRecord_quiet (growth : Grows first disk) (record : Record) :
    Quiet base disk (plan.writeRecord disk record).1 := by
  refine ⟨(writeRecord_writes plan disk record).grows, fun loc outside => ?_⟩
  by_contra changed
  apply outside
  apply touches_inside free.sound growth located same _ (Or.inl changed)
  -- No link is left on what lies below the root.
  rintro ⟨_, target, accepted, bent⟩
  exact bent (free.bare growth (free.target_inside growth accepted).2)

theorem WritesAll.quiet {after : Disk} (growth : Grows first disk)
    (writes : WritesAll plan disk records after) : Quiet base disk after := by
  induction writes with
  | nil disk => exact .refl base disk
  | @cons disk next after record rest written _ ih =>
      have step := writeRecord_quiet free located same growth record
      rw [written] at step
      exact step.trans (ih (growth.trans step.grows))

theorem emit_quiet (growth : Grows first disk) (registry : Registry) :
    Quiet base disk (plan.emit disk registry).1 := by
  rw [emit_fst]
  refine (writeRecords_keeps (motive := Quiet base disk) _ (.refl base disk) ?_).2
  intro stop _ quiet
  exact quiet.trans
    (writeRecord_quiet free located same (growth.trans quiet.grows) stop.2)

/-- A record that was written is written again, on a disk where files may hold other bytes by now. -/
theorem writeRecord_again (quiet : Quiet base first disk) (fixed : Fixed first base record)
    (written : plan.writeRecord disk record = (next, .ok ())) (growth : Grows next final)
    (rewrites : Rewrites final other) (quietLater : Quiet base first other) :
    ∃ last, plan.writeRecord other record = (last, .ok ()) ∧ Rewrites final last ∧
      ∀ loc, last.get? loc = next.get? loc ∨
        last.get? loc = other.get? loc ∧ next.get? loc = disk.get? loc := by
  have writes := writeRecord_writes plan disk record
  rw [written] at writes
  cases writes with
  | skipped ambiguous =>
      exact ⟨other, writeRecord_ambiguous ambiguous, rewrites, fun loc => Or.inr ⟨rfl, rfl⟩⟩
  | @done target made _ bytes accepted ready supplied stored =>
      have root : plan.rootOf record.state = plan.root := rootOf_eq same _
      have madeGrows : Grows disk made := by
        have grown := ensureDirectory_grows disk (pathOf target).parent
        rwa [ready] at grown
      rw [root] at accepted
      obtain ⟨taken, inside⟩ := free.target_inside quiet.grows accepted
      have ordinary := canonical_ordinary (free.sound.grounded.grows quiet.grows) taken
      obtain ⟨mode, old, below, rfl, there, again⟩ :=
        writeBytes_again (free.bare (quiet.grows.trans madeGrows) inside) ordinary stored
          (growth.trans rewrites.grows)
      have prepared : prepareTarget disk plan.root record.path = (made, .ok (pathOf target)) := by
        simp only [prepareTarget, accepted, ready]
      have preparedAgain := prepareTarget_again free quiet.grows prepared
        (((writeBytes_grows stored).trans growth).trans rewrites.grows)
      have supplies : plan.Supplies other record bytes := by
        apply supplied.congr
        intro source known
        have madeQuiet := readied_quiet free located quiet.grows accepted
        rw [readied, ready] at madeQuiet
        rw [fixed source known other quietLater,
          fixed source known made (quiet.trans madeQuiet)]
      refine ⟨other.put target (.file bytes mode),
        writeRecord_of_prepared (root ▸ preparedAgain) supplies again,
        rewrites.trans (rewrites_put other below there bytes), fun loc => ?_⟩
      by_cases here : loc = target
      · rw [here, get?_put_same _ _ below, get?_put_same _ _ below]
        exact Or.inl rfl
      · rw [get?_put_other _ _ here, get?_put_other _ _ here]
        -- Beside the target only directories are new, and these are still there.
        have spared := ensureDirectory_spares disk (pathOf target).parent loc
        rw [ready] at spared
        rcases spared with kept | ⟨_, directory⟩
        · exact Or.inr ⟨rfl, kept⟩
        · rw [directory]
          exact Or.inl ((((writeBytes_grows stored).trans growth).trans rewrites.grows).directory
            directory)

/-! ### All records -/

/-- Records that were written are written again. What a file holds then is what it held after the
first time, but for files that were not written at all. -/
theorem WritesAll.again {after : Disk} (writes : WritesAll plan disk records after)
    (quiet : Quiet base first disk) (fixed : ∀ record ∈ records, Fixed first base record)
    (growth : Grows after final) (rewrites : Rewrites final other)
    (quietLater : Quiet base first other) :
    ∃ last, WritesAll plan other records last ∧ Rewrites final last ∧
      ∀ loc, last.get? loc = after.get? loc ∨
        last.get? loc = other.get? loc ∧ after.get? loc = disk.get? loc := by
  -- Of two records with one target the second decides in both runs, so the disks are compared record
  -- by record: where the second run has not written, the first one has not either.
  induction writes generalizing other with
  | nil disk => exact ⟨other, .nil other, rewrites, fun loc => Or.inr ⟨rfl, rfl⟩⟩
  | @cons disk next after record rest written later ih =>
      obtain ⟨head, tail⟩ := List.forall_mem_cons.mp fixed
      have step := writeRecord_quiet free located same quiet.grows record
      rw [written] at step
      have onward := WritesAll.quiet free located same (quiet.grows.trans step.grows) later
      obtain ⟨middle, again, kept, places⟩ := writeRecord_again free located same quiet head written
        (onward.grows.trans growth) rewrites quietLater
      have middleQuiet := writeRecord_quiet free located same quietLater.grows record
      rw [again] at middleQuiet
      obtain ⟨last, writes, whole, others⟩ := ih (quiet.trans step) tail growth kept
        (quietLater.trans middleQuiet)
      refine ⟨last, .cons again writes, whole, fun loc => ?_⟩
      rcases others loc with done | ⟨lastSame, afterSame⟩
      · exact Or.inl done
      · rcases places loc with here | ⟨otherSame, nextSame⟩
        · exact Or.inl (lastSame.trans (here.trans afterSame.symm))
        · exact Or.inr ⟨lastSame.trans otherSame, afterSame.trans nextSame⟩

/-- Records that were written leave everything as it is when they are written again, also once some
more directories are there. -/
theorem WritesAll.repeats {after : Disk} (writes : WritesAll plan disk records after)
    (quiet : Quiet base first disk) (fixed : ∀ record ∈ records, Fixed first base record)
    (growth : Quiet base after final) (spared : ∀ loc, Spared after final loc) :
    WritesAll plan final records final := by
  have wrote := WritesAll.quiet free located same quiet.grows writes
  have quietLater := (quiet.trans wrote).trans growth
  obtain ⟨last, again, rewrites, places⟩ := writes.again free located same quiet fixed growth.grows
    (.refl final) quietLater
  have unchanged : last = final := by
    apply rewrites.eq (quietLater.grows.once free.sound.once)
    intro loc
    rcases places loc with done | ⟨kept, _⟩
    · rcases spared loc with kept | ⟨free, directory⟩
      · exact done.trans kept.symm
      · rw [rewrites.grows.directory directory, directory]
    · exact kept
  rwa [unchanged] at again

/-- What was cut short is cut short again at the same record, and what came to its end does so
again. -/
theorem writeRecords_again {found : Emitted} {after : Disk} {notes : List Note}
    {result : Except Failure Emitted} (quiet : Quiet base first disk)
    (fixed : ∀ record ∈ records, Fixed first base record)
    (ended : plan.writeRecords disk found records = (after, notes, result)) :
    ∃ more again, plan.writeRecords after found records = (after, more, again) ∧
      match result with
      | .ok emitted => ∃ other, again = .ok other ∧ other.ambiguous = emitted.ambiguous
      | .error failure => ∃ other, again = .error other ∧ Recurs failure other := by
  cases result with
  | ok emitted =>
      have writes := (writesAll_iff plan disk found records after).mpr ⟨notes, emitted, ended⟩
      have repeats := writes.repeats free located same quiet fixed (.refl base after)
        fun _ => Or.inl rfl
      obtain ⟨more, other, again⟩ := (writesAll_iff plan after found records after).mp repeats
      refine ⟨more, .ok other, again, other, rfl, ?_⟩
      rw [ambiguous_of_writeRecords again, ambiguous_of_writeRecords ended]
  | error failure =>
      obtain ⟨front, record, rest, middle, rfl, writes, failed⟩ :=
        (writeRecords_error_iff plan disk found records after failure).mp ⟨notes, ended⟩
      have wrote := writes.quiet free located same quiet.grows
      have last := writeRecord_quiet free located same (quiet.trans wrote).grows record
      rw [failed] at last
      have spared : ∀ loc, Spared middle after loc := by
        intro loc
        rcases writeRecord_madeAlong failed with rfl | ⟨target, _, made⟩
        · exact Or.inl rfl
        · rcases made.places loc with kept | ⟨free, _, _, _, directory⟩
          · exact Or.inl kept
          · exact Or.inr ⟨free, directory⟩
      -- The records before the failing one are all written again before it fails again.
      have repeats := writes.repeats free located same quiet
        (fun record member => fixed record (List.mem_append_left _ member)) last spared
      obtain ⟨other, stuck, recurs⟩ :=
        writeRecord_stuck free same (quiet.trans wrote).grows failed
      obtain ⟨more, again⟩ := (writeRecords_error_iff plan after found _ after other).mpr
        ⟨front, record, rest, after, rfl, repeats, stuck⟩
      exact ⟨more, .error other, again, other, rfl, recurs⟩

/-- An emission that comes again to the disk that it has left changes nothing on it and ends as
before. -/
theorem emit_again {registry : Registry} (quiet : Quiet base first disk)
    (fixed : ∀ record ∈ registry.expectedRecords, Fixed first base record) :
    (plan.emit (plan.emit disk registry).1 registry).1 = (plan.emit disk registry).1 ∧
      Repeats ((plan.emit disk registry).2.2.map fun _ => ())
        ((plan.emit (plan.emit disk registry).1 registry).2.2.map fun _ => ()) := by
  rw [emit_fst plan disk]
  rcases ended : plan.writeRecords disk ⟨[], []⟩ registry.expectedRecords with
    ⟨after, notes, result⟩
  obtain ⟨more, again, repeated, alike⟩ :=
    writeRecords_again free located same quiet fixed ended
  cases result with
  | ok emitted =>
      obtain ⟨other, rfl, paths⟩ := alike
      simp only [emit, ended, repeated, paths]
      cases emitted.ambiguous with
      | nil => exact ⟨rfl, .returned⟩
      | cons path rest => exact ⟨rfl, .failed (.same _)⟩
  | error failure =>
      obtain ⟨other, rfl, recurs⟩ := alike
      simp only [emit, ended, repeated, true_and]
      exact .failed recurs

end Writing

end Emission
end Emplace
