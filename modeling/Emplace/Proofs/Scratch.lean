import Emplace.Proofs.Disk.Calls
import Emplace.Scratch

/-!
A scratch directory from its making to its removal. It is made where nothing was, so its path leads
to that place for as long as the ways of the disk are kept, and removing it takes that place away
and nothing else.
-/
namespace Emplace.Scratch

open Disk

/-- A scratch directory that was made under the name `name`, free until then, in the directory
`dir`. -/
structure Made (before made : Disk) (scratch : Scratch) (dir : Location) (name : String) :
    Prop where
  free : before.locate .self (Path.raw scratch.path) = .ok (.absent dir name)
  put : made = before.put (dir ++ [name]) .directory

variable {before made later : Disk} {scratch : Scratch} {dir : Location} {name : String}

theorem make_eq_ok {place : String} {start : Start} {tails : List String}
    (done : make before place start tails = .ok (made, scratch)) :
    ∃ dir name, Made before made scratch dir name := by
  induction tails with
  | nil => cases done
  | cons tail rest ih =>
      unfold make at done
      dsimp only at done
      split at done
      · cases done
      · split at done
        · cases done
        · exact ih done
        · rename_i dir name free
          cases done
          exact ⟨dir, name, free, rfl⟩

/-- A free name is found: the first of some tails gives one, or a name that is taken where a later
one gives a free one. -/
inductive Findable (disk : Disk) (place : String) (start : Start) : List String → Prop where
  | free {tail : String} {rest : List String} {dir : Location} {name : String} :
      hasNull (Path.raw (named place start tail).path) = false →
      disk.locate .self (Path.raw (named place start tail).path) = .ok (.absent dir name) →
      Findable disk place start (tail :: rest)
  | taken {tail : String} {rest : List String} {loc : Location} {entry : Entry} :
      hasNull (Path.raw (named place start tail).path) = false →
      disk.locate .self (Path.raw (named place start tail).path) = .ok (.present loc entry) →
      Findable disk place start rest → Findable disk place start (tail :: rest)

theorem make_eq_ok_iff (disk : Disk) (place : String) (start : Start) (tails : List String) :
    (∃ both, make disk place start tails = .ok both) ↔ Findable disk place start tails := by
  constructor
  · rintro ⟨both, done⟩
    induction tails with
    | nil => cases done
    | cons tail rest ih =>
        rw [make] at done
        split at done
        · cases done
        · rename_i clear
          have clear := Bool.eq_false_iff.mpr clear
          split at done
          · cases done
          · rename_i loc entry there
            exact .taken clear there (ih done)
          · rename_i dir name there
            exact .free clear there
  · intro found
    induction found with
    | free clear free => exact ⟨_, by simp only [make, clear, free]; rfl⟩
    | taken clear there _ ih =>
        obtain ⟨both, done⟩ := ih
        exact ⟨both, by simp only [make, clear, there, done]; rfl⟩

theorem make_fault {disk : Disk} {place : String} {start : Start} {tails : List String}
    {fault : Fault} (failed : make disk place start tails = .error fault) :
    fault ≠ .missingEntry := by
  induction tails with
  | nil =>
      cases failed
      simp
  | cons tail rest ih =>
      rw [make] at failed
      split at failed
      · cases failed
        simp
      · split at failed
        · cases failed
          unfold refused
          split <;> simp
        · exact ih failed
        · cases failed

theorem remove_fault {fault : Fault} (failed : scratch.remove later = .error fault) :
    fault ≠ .missingEntry := by
  have refusal : ∀ cause, scratch.refused cause ≠ .missingEntry := by
    intro cause
    unfold refused
    split <;> simp
  unfold remove at failed
  dsimp only at failed
  split at failed
  · cases failed
  · split at failed
    · cases failed
      simp
    · cases failed
    · cases failed
      exact refusal _
  · cases failed
    exact refusal _
  · cases failed
  · cases failed
  · cases failed
    exact refusal _

theorem Made.keepsWays (here : Made before made scratch dir name) : KeepsWays before made := by
  rw [here.put]
  exact (grows_put_directory before (locate_absent here.free).2).keepsWays

theorem Made.directory (here : Made before made scratch dir name) :
    made.get? (dir ++ [name]) = some .directory := by
  rw [here.put]
  exact get?_put_same before _ (by simp)

/-- While the ways are kept, the path leads to the directory that was made. -/
theorem Made.locate (here : Made before made scratch dir name) (keeps : KeepsWays made later)
    {aim : Aim} (looking : aim ≠ .writing) :
    later.locate aim (Path.raw scratch.path) = .ok (.present (dir ++ [name]) .directory) :=
  (locate_again here.free (here.keepsWays.trans keeps) looking).1
    (keeps.directory _ here.directory)

theorem Made.remove (here : Made before made scratch dir name) (keeps : KeepsWays made later) :
    scratch.remove later = .ok (later.erase (dir ++ [name])) := by
  have found := here.locate keeps (by simp : Aim.self ≠ .writing)
  simp [Scratch.remove, found]

/-- What was there before the directory was made is there after it is removed. -/
theorem Made.keepsWays_erase (founded : Founded before)
    (here : Made before made scratch dir name) (keeps : KeepsWays made later) :
    KeepsWays before (later.erase (dir ++ [name])) := by
  have free := (locate_absent here.free).2
  have apart : ∀ loc, before.get? loc ≠ none → ¬ dir ++ [name] <+: loc := by
    rintro loc some ⟨more, rfl⟩
    exact some (founded.free_below free more)
  have ways := here.keepsWays.trans keeps
  refine ⟨ways.cwd, fun loc found => ?_, fun loc target found => ?_⟩
  · rw [get?_erase later (by simp) _, if_neg (apart loc (by simp [found]))]
    exact ways.directory loc found
  · rw [get?_erase later (by simp) _, if_neg (apart loc (by simp [found]))]
    exact ways.link loc target found

/-- Once the directory is removed, nothing is at its path. -/
theorem Made.status_erase (founded : Founded before) (here : Made before made scratch dir name)
    (keeps : KeepsWays made later) :
    (later.erase (dir ++ [name])).status (Path.raw scratch.path) = .error .noEntry := by
  have gone : (later.erase (dir ++ [name])).get? (dir ++ [name]) = none := by
    rw [get?_erase later (by simp) _, if_pos (List.prefix_refl _)]
  have absent := (locate_again here.free (here.keepsWays_erase founded keeps)
    (by simp : Aim.target ≠ .writing)).2 gone
  simp [status, absent]

end Emplace.Scratch
