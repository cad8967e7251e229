import Emplace.Proofs.Disk.Apart
import Emplace.Proofs.Emission.Containment
import Emplace.Proofs.Emission.Delivering
import Emplace.Proofs.Path

/-!
Where outputs come to stand in a tree without links: each one at the names of its declared path,
with the bytes that it was given, and beside them only directories are new. Outputs of different
paths do not meet.
-/
namespace Emplace.Emission

open Disk

variable {plan : Emission} {disk later : Disk} {scratch : Path} {top base : Location}

/-- What one written record leaves behind. -/
structure Placed (plan : Emission) (disk : Disk) (base : Location) (record : Record)
    (after : Disk) : Prop where
  settled : record.state ≠ .ambiguous
  supplied : ∃ made bytes executable, Quiet base disk made ∧ plan.Supplies made record bytes ∧
    after.get? (base ++ Text.split '/' record.path) = some (.file bytes executable)

/-- A place that is as before, or a free one below the root that a directory has come to. -/
def Untouched (base : Location) (before after : Disk) (loc : Location) : Prop :=
  after.get? loc = before.get? loc ∨
    before.get? loc = none ∧ base <+: loc ∧ after.get? loc = some .directory

theorem Untouched.trans {a b c : Disk} {loc : Location} (first : Untouched base a b loc)
    (second : Untouched base b c loc) : Untouched base a c loc := by
  rcases second with kept | ⟨free, inside, made⟩
  · rcases first with before | ⟨free, inside, made⟩
    · exact Or.inl (kept.trans before)
    · exact Or.inr ⟨free, inside, kept.trans made⟩
  · rcases first with before | ⟨_, _, made⟩
    · exact Or.inr ⟨before ▸ free, inside, made⟩
    · rw [free] at made
      cases made

theorem writeRecord_placed (apart : Apart disk scratch plan.root top base)
    (same : plan.placeholderRoot = plan.root) (quiet : Quiet base disk later) {record : Record}
    (normal : Normal record.path) (settled : record.state ≠ .ambiguous)
    (done : (plan.writeRecord later record).2 = .ok ()) :
    Quiet base disk (plan.writeRecord later record).1 ∧
      Placed plan disk base record (plan.writeRecord later record).1 ∧
      ∀ loc, loc ≠ base ++ Text.split '/' record.path →
        Untouched base later (plan.writeRecord later record).1 loc := by
  have free := LinkFree.of_locate apart.sound apart.root apart.bare
  rcases outcome : plan.writeRecord later record with ⟨after, result⟩
  rw [outcome] at done
  subst done
  obtain ⟨_, delivery, delivers⟩ :=
    (writeRecord_delivers free quiet.grows same outcome).resolve_left fun both => settled both.1
  have accepted := delivers.accepted
  obtain ⟨canonical, _⟩ := targetLocation_eq_ok accepted
  rw [normal.ofString] at canonical
  have here : delivery.target = base ++ Text.split '/' record.path :=
    apart.canonical_eq quiet.grows normal canonical
  have bare := apart.bare_target quiet.grows (Text.split '/' record.path)
  have root := directory_of_locate apart.sound apart.root
  have ordinary : ∀ name ∈ base ++ Text.split '/' record.path, Ordinary name := by
    intro name member
    rcases List.mem_append.mp member with early | late
    · exact (apart.sound.nameable root name early).1
    · exact normal name late
  rw [← here] at bare ordinary ⊢
  have off := ensureDirectory_sameOff apart.sound quiet.grows root bare ordinary delivers.inside
  have madeQuiet : Quiet base disk (readied later delivery.target) :=
    quiet.trans ⟨ensureDirectory_grows later _, off⟩
  obtain ⟨executable, stands⟩ := delivers.stands
  refine ⟨madeQuiet.trans ⟨delivers.grows, delivers.off⟩,
    ⟨settled, _, _, executable, madeQuiet, delivers.supplied, here ▸ stands⟩, ?_⟩
  intro loc elsewhere
  -- Beside the file itself, only the directories above it can be new.
  by_cases under : base <+: loc
  · rcases delivers.spares elsewhere with kept | ⟨free, directory⟩
    · exact Or.inl kept
    · exact Or.inr ⟨free, under, directory⟩
  · exact Or.inl ((delivers.off loc under).trans (off loc under))

theorem writeRecords_placed (plan : Emission) (apart : Apart disk scratch plan.root top base)
    (same : plan.placeholderRoot = plan.root) {records : List Record} {found result : Emitted}
    {after : Disk} {notes : List Note} (quiet : Quiet base disk later)
    (normal : ∀ record ∈ records, Normal record.path) (once : (records.map Record.path).Nodup)
    (settled : ∀ record ∈ records, record.state ≠ .ambiguous)
    (done : plan.writeRecords later found records = (after, notes, .ok result)) :
    (∀ record ∈ records, Placed plan disk base record after) ∧
      ∀ loc, (∀ record ∈ records, loc ≠ base ++ Text.split '/' record.path) →
        Untouched base later after loc := by
  induction records generalizing later found notes with
  | nil =>
      rw [writeRecords] at done
      cases done
      exact ⟨by simp, fun loc _ => Or.inl rfl⟩
  | cons record rest ih =>
      rw [List.forall_mem_cons] at normal settled
      obtain ⟨fresh, restOnce⟩ := List.nodup_cons.mp once
      have here := writeRecord_placed apart same quiet normal.1 settled.1
      rw [writeRecords] at done
      rcases outcome : plan.writeRecord later record with ⟨next, failure | _⟩
      · rw [outcome] at done
        cases done
      · rw [outcome] at done here
        obtain ⟨nextQuiet, placed, beside⟩ := here rfl
        rcases tail : plan.writeRecords next (Emitted.add found record) rest with
          ⟨last, more, final⟩
        simp only [tail, Prod.mk.injEq] at done
        obtain ⟨rfl, _, rfl⟩ := done
        obtain ⟨others, further⟩ := ih nextQuiet normal.2 restOnce settled.2 tail
        -- The other outputs go elsewhere, so this one stays.
        have apartFrom : ∀ other ∈ rest,
            base ++ Text.split '/' record.path ≠ base ++ Text.split '/' other.path := by
          intro other member equal
          apply fresh
          rw [Text.split_injective (List.append_cancel_left equal)]
          exact List.mem_map_of_mem member
        refine ⟨List.forall_mem_cons.mpr ⟨⟨placed.settled, ?_⟩, others⟩, fun loc elsewhere => ?_⟩
        · obtain ⟨made, bytes, executable, madeQuiet, supplied, written⟩ := placed.supplied
          refine ⟨made, bytes, executable, madeQuiet, supplied, ?_⟩
          rcases further _ apartFrom with kept | ⟨free, _⟩
          · exact kept.trans written
          · rw [written] at free
            cases free
        · rw [List.forall_mem_cons] at elsewhere
          exact (beside loc elsewhere.1).trans (further loc elsewhere.2)

end Emplace.Emission
