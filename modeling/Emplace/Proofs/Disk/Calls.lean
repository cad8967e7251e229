import Emplace.Disk.Calls
import Emplace.Proofs.Disk.Ways
import Emplace.Proofs.Path

/-!
What the calls on files do to a disk. Each one that succeeds puts a single entry where its path
leads, and the disk grows by it; directories that are made one above the other are made one at a
time.
-/
namespace Emplace.Disk

variable {disk : Disk} {path : Path}

theorem answer_eq_ok {α : Type} {result : Except Cause α} {value : α}
    (found : answer path result = .ok value) : result = .ok value ∧ hasNull path = false := by
  unfold answer at found
  cases null : hasNull path with
  | true => cases result <;> simp [null] at found
  | false =>
      cases result with
      | error cause => simp [null] at found
      | ok other =>
          simp only [null, Bool.false_eq_true, if_false, Except.ok.injEq] at found
          exact ⟨congrArg _ found, rfl⟩

theorem locate_absent {aim : Aim} {dir : Location} {name : String}
    (found : disk.locate aim path = .ok (.absent dir name)) :
    Ordinary name ∧ disk.get? (dir ++ [name]) = none :=
  (locate_eq_ok_iff.mp found).2.get?_absent

theorem locate_present {aim : Aim} {loc : Location} {entry : Entry}
    (found : disk.locate aim path = .ok (.present loc entry)) (other : entry ≠ .directory) :
    loc ≠ [] ∧ disk.get? loc = some entry :=
  (locate_eq_ok_iff.mp found).2.get?_present other

theorem hasNull_of_locate (sound : Sound disk) {loc : Location}
    (found : disk.locate .target path = .ok (.present loc .directory)) : hasNull path = false := by
  obtain ⟨_, left, enters⟩ := (locate_directory_iff path loc).mp found
  exact hasNull_eq_false (enters.clear sound)

/-! ### Making directories -/

theorem makeDirectory_eq_ok {made : Disk} (done : disk.makeDirectory path = .ok made) :
    ∃ dir name, disk.locate .self path = .ok (.absent dir name) ∧
      made = disk.put (dir ++ [name]) .directory := by
  obtain ⟨found, _⟩ := answer_eq_ok done
  cases spot : disk.locate .self path with
  | error cause => simp [spot] at found
  | ok there =>
      cases there with
      | present loc entry => simp [spot] at found
      | absent dir name =>
          simp only [spot, Except.ok.injEq] at found
          exact ⟨dir, name, rfl, found.symm⟩

/-- Once a directory is put at the free name that a path leads to, the path leads to it. -/
theorem locate_made {dir : Location} {name : String}
    (found : disk.locate .self path = .ok (.absent dir name)) :
    (disk.put (dir ++ [name]) .directory).locate .target path =
      .ok (.present (dir ++ [name]) .directory) := by
  have growth := grows_put_directory disk (locate_absent found).2
  exact (locate_again found growth.keepsWays (by simp)).1 (get?_put_same disk _ (by simp))

theorem isDirectory_eq_ok_true (found : disk.isDirectory path = .ok true) :
    ∃ loc, disk.locate .target path = .ok (.present loc .directory) := by
  unfold isDirectory holds status at found
  split at found
  · cases found
  · cases spot : disk.locate .target path with
    | error cause =>
        simp only [spot] at found
        split at found <;> cases found
    | ok there =>
        cases there with
        | absent dir name => simp [spot, meansAbsent] at found
        | present loc entry => cases entry <;> simp_all

theorem acceptPresent_fst (fault : Fault) : (disk.acceptPresent path fault).1 = disk := by
  unfold acceptPresent
  split <;> rfl

theorem acceptPresent_eq_ok {fault : Fault} (done : (disk.acceptPresent path fault).2 = .ok ()) :
    ∃ loc, disk.locate .target path = .ok (.present loc .directory) := by
  unfold acceptPresent at done
  split at done
  · cases done
  · rename_i found
    exact isDirectory_eq_ok_true found
  · cases done

/-- Whatever holds of a disk and is kept when one directory on a path is made holds after all of
them are made, and also where the making stopped. -/
theorem ensureDirectory_keeps {motive : Disk → Prop} (path : Path)
    (step : ∀ part front dir name, front <+: path.names → motive part →
      part.locate .self ⟨path.anchor, front⟩ = .ok (.absent dir name) →
      motive (part.put (dir ++ [name]) .directory))
    (start : motive disk) : motive (disk.ensureDirectory path).1 := by
  -- One directory is made, then the last of several, then all of them from the top of the missing
  -- part downwards.
  have made : ∀ part made front, front <+: path.names → motive part →
      part.makeDirectory ⟨path.anchor, front⟩ = .ok made → motive made := by
    intro part made front upTo holds done
    obtain ⟨dir, name, found, rfl⟩ := makeDirectory_eq_ok done
    exact step part front dir name upTo holds found
  have last : ∀ part front, front <+: path.names → motive part →
      motive (part.ensureLast ⟨path.anchor, front⟩).1 := by
    intro part front upTo holds
    unfold ensureLast
    split
    · exact made part _ front upTo holds ‹_›
    · exact holds
    · rw [acceptPresent_fst]
      exact holds
    · exact holds
  have all : ∀ names : List String, names.reverse <+: path.names →
      motive (disk.ensureNames path.anchor names).1 := by
    intro names upTo
    induction names with
    | nil => exact last disk [] upTo start
    | cons name above ih =>
        have shorter : above.reverse <+: path.names := by
          rw [List.reverse_cons] at upTo
          exact (List.prefix_append _ _).trans upTo
        have before := ih shorter
        rw [ensureNames]
        split
        · exact made disk _ _ upTo start ‹_›
        · split
          · rename_i part same
            rw [same] at before
            exact last part _ upTo before
          · rename_i part fault same
            rw [same] at before
            exact before
        · rw [acceptPresent_fst]
          exact start
        · exact start
  exact all path.names.reverse (by simp)

theorem ensureLast_eq_ok (done : (disk.ensureLast path).2 = .ok ()) :
    ∃ loc, (disk.ensureLast path).1.locate .target path = .ok (.present loc .directory) := by
  unfold ensureLast at done ⊢
  split at done
  · rename_i made same
    obtain ⟨dir, name, found, rfl⟩ := makeDirectory_eq_ok same
    exact ⟨_, locate_made found⟩
  · cases done
  · rw [acceptPresent_fst]
    exact acceptPresent_eq_ok done
  · cases done

/-- Directories that could all be made are there. -/
theorem ensureDirectory_eq_ok (done : (disk.ensureDirectory path).2 = .ok ()) :
    ∃ loc, (disk.ensureDirectory path).1.locate .target path = .ok (.present loc .directory) := by
  have all : ∀ names : List String, (disk.ensureNames path.anchor names).2 = .ok () →
      ∃ loc, (disk.ensureNames path.anchor names).1.locate .target ⟨path.anchor, names.reverse⟩ =
        .ok (.present loc .directory) := by
    intro names done
    cases names with
    | nil => exact ensureLast_eq_ok done
    | cons name above =>
        rw [ensureNames] at done ⊢
        split at done
        · rename_i made same
          obtain ⟨dir, last, found, rfl⟩ := makeDirectory_eq_ok same
          exact ⟨_, locate_made found⟩
        · split at done
          · exact ensureLast_eq_ok done
          · cases done
        · rw [acceptPresent_fst]
          exact acceptPresent_eq_ok done
        · cases done
  have whole := all path.names.reverse done
  rwa [List.reverse_reverse] at whole

theorem ensureDirectory_grows (disk : Disk) (path : Path) :
    Grows disk (disk.ensureDirectory path).1 :=
  ensureDirectory_keeps path
    (fun _ _ _ _ _ grown found => grown.trans (grows_put_directory _ (locate_absent found).2))
    (Grows.refl disk)

/-- What the system finds below a directory that a path leads to, also after the disk has grown. -/
theorem locate_join {loc : Location}
    (entered : disk.locate .target path = .ok (.present loc .directory)) :
    ∃ left, left ≤ linkLimit ∧ ∀ later, Grows disk later → ∀ aim names, GoesOn aim names →
      later.locate aim (path.join ⟨.here, names⟩) =
        if pathLimit < (path.join ⟨.here, names⟩).text.utf8ByteSize then .error .nameTooLong
        else later.chase aim left loc names := by
  obtain ⟨_, left, enters⟩ := (locate_directory_iff _ loc).mp entered
  refine ⟨left, enters.left_le, ?_⟩
  intro later growth aim names onward
  have start : startOf later.cwd (path.join ⟨.here, names⟩) = startOf disk.cwd path := by
    rw [growth.cwd]
    rfl
  unfold locate
  rw [start]
  split
  · rfl
  · exact (enters.grows growth).chase onward

/-- The same for the entries of the directory. -/
theorem locate_entry {loc : Location}
    (entered : disk.locate .target path = .ok (.present loc .directory)) :
    ∃ left, left ≤ linkLimit ∧ ∀ later, Grows disk later → ∀ aim name,
      (aim = .writing → name ≠ "") → later.locate aim (path.entry name) =
        if pathLimit < (path.entry name).text.utf8ByteSize then .error .nameTooLong
        else later.chase aim left loc [name] := by
  obtain ⟨left, few, below⟩ := locate_join entered
  refine ⟨left, few, fun later growth aim name asks => ?_⟩
  have onward : GoesOn aim [name] := Or.inr ⟨by simp, fun writing => by simpa using asks writing⟩
  exact below later growth aim [name] onward

/-- What the system finds at a path whose parent is a directory: something, a free name in it, or
nothing because a name is too long. -/
theorem locate_below {loc : Location}
    (entered : disk.locate .target path.parent = .ok (.present loc .directory))
    (below : path.names ≠ []) :
    disk.locate .self path = .error .nameTooLong ∨
      (∃ there entry, disk.locate .self path = .ok (.present there entry)) ∨
      ∃ name, disk.locate .self path = .ok (.absent loc name) := by
  obtain ⟨left, _, entries⟩ := locate_entry entered
  have whole : path.parent.entry (path.names.getLast below) = path := by
    simp [Path.parent, Path.entry, List.dropLast_append_getLast below]
  have same := entries disk (Grows.refl disk) .self (path.names.getLast below)
    (fun writing => by cases writing)
  rw [whole] at same
  generalize path.names.getLast below = last at same
  rw [same]
  split
  · exact Or.inl rfl
  · by_cases idle : last = "." ∨ last = ""
    · rw [chase_idle idle, chase_nil]
      exact Or.inr (Or.inl ⟨_, _, rfl⟩)
    · by_cases up : last = ".."
      · rw [up, chase_up, chase_nil]
        exact Or.inr (Or.inl ⟨_, _, rfl⟩)
      · rw [chase_ordinary (ordinary_of_not_idle idle up)]
        split
        · exact Or.inl rfl
        · cases disk.get? (loc ++ [last]) with
          | none => exact Or.inr (Or.inr ⟨last, by simp⟩)
          | some entry =>
              cases entry with
              | directory => exact Or.inr (Or.inl ⟨_, _, chase_nil disk .self left _⟩)
              | file bytes executable =>
                  exact Or.inr (Or.inl ⟨loc ++ [last], .file bytes executable, by simp⟩)
              | link target => exact Or.inr (Or.inl ⟨loc ++ [last], .link target, by simp⟩)
              | pipe => exact Or.inr (Or.inl ⟨loc ++ [last], .pipe, by simp⟩)

theorem makeDirectory_absent {dir : Location} {name : String} (clear : hasNull path = false)
    (free : disk.locate .self path = .ok (.absent dir name)) :
    disk.makeDirectory path = .ok (disk.put (dir ++ [name]) .directory) := by
  simp [makeDirectory, free, answer, clear]

theorem ensureDirectory_absent {dir : Location} {name : String} (clear : hasNull path = false)
    (free : disk.locate .self path = .ok (.absent dir name)) :
    disk.ensureDirectory path = (disk.put (dir ++ [name]) .directory, .ok ()) := by
  have made := makeDirectory_absent clear free
  obtain ⟨anchor, names⟩ := path
  rcases List.eq_nil_or_concat names with rfl | ⟨above, last, rfl⟩
  · simp [ensureDirectory, ensureNames, ensureLast, made]
  · simp only [List.concat_eq_append] at made
    simp [ensureDirectory, ensureNames, made]

/-- Where the parent is a directory and no name in it is free for the path, nothing is made. -/
theorem ensureDirectory_taken {loc : Location} (clear : hasNull path = false)
    (entered : disk.locate .target path.parent = .ok (.present loc .directory))
    (below : path.names ≠ [])
    (taken : ∀ dir name, disk.locate .self path ≠ .ok (.absent dir name)) :
    (disk.ensureDirectory path).1 = disk := by
  -- Only where a parent is missing would the directories above be made as well.
  have refused : ∃ cause, disk.makeDirectory path = .error (.system ⟨cause, path.text⟩) ∧
      cause ≠ .noEntry := by
    rcases locate_below entered below with long | ⟨there, entry, found⟩ | ⟨name, free⟩
    · exact ⟨.nameTooLong, by simp [makeDirectory, long, answer, clear], by simp⟩
    · exact ⟨.exists, by simp [makeDirectory, found, answer, clear], by simp⟩
    · exact absurd free (taken loc name)
  obtain ⟨cause, same, other⟩ := refused
  obtain ⟨anchor, names⟩ := path
  rcases List.eq_nil_or_concat names with rfl | ⟨above, last, rfl⟩
  · exact absurd rfl below
  · simp only [List.concat_eq_append] at same
    simp only [ensureDirectory, List.concat_eq_append, List.reverse_append, List.reverse_cons,
      List.reverse_nil, List.nil_append, List.singleton_append, ensureNames, List.reverse_reverse,
      same]
    cases cause <;> first | exact acceptPresent_fst _ | exact absurd rfl other

theorem ensureDirectory_spares (disk : Disk) (path : Path) (loc : Location) :
    Spared disk (disk.ensureDirectory path).1 loc := by
  apply ensureDirectory_keeps (motive := fun part => Spared disk part loc)
  · intro part front dir name _ before found
    exact before.trans (spared_put_directory part (locate_absent found).2 loc)
  · exact Or.inl rfl

/-- Making directories fills no tree. -/
theorem ensureDirectory_fills (disk : Disk) (path : Path) (base : Location) :
    Fills base disk (disk.ensureDirectory path).1 :=
  ⟨ensureDirectory_grows disk path, fun loc _ => ensureDirectory_spares disk path loc⟩

/-! ### Files -/

theorem writeBytes_eq_ok {bytes : ByteArray} {written : Disk}
    (done : disk.writeBytes path bytes = .ok written) :
    ∃ spot executable, disk.locate .writing path = .ok spot ∧
      written = disk.put spot.place (.file bytes executable) ∧ spot.place ≠ [] ∧
      (disk.get? spot.place = none ∧ executable = false ∨
        ∃ old, disk.get? spot.place = some (.file old executable)) := by
  obtain ⟨found, _⟩ := answer_eq_ok done
  cases spot : disk.locate .writing path with
  | error cause => simp [spot] at found
  | ok there =>
      cases there with
      | absent dir name =>
          simp only [spot, Except.ok.injEq] at found
          exact ⟨_, false, rfl, found.symm, by simp [Spot.place],
            Or.inl ⟨(locate_absent spot).2, rfl⟩⟩
      | present loc entry =>
          cases entry with
          | file old executable =>
              simp only [spot, Except.ok.injEq] at found
              obtain ⟨below, here⟩ := locate_present spot (by simp)
              exact ⟨_, executable, rfl, found.symm, below, Or.inr ⟨old, here⟩⟩
          | directory => simp [spot] at found
          | link target => simp [spot] at found
          | pipe => simp [spot] at found

theorem writeBytes_grows {bytes : ByteArray} {written : Disk}
    (done : disk.writeBytes path bytes = .ok written) : Grows disk written := by
  obtain ⟨spot, executable, _, rfl, below, place⟩ := writeBytes_eq_ok done
  exact grows_put_file disk below place

theorem readBytes_eq_ok {bytes : ByteArray} (done : disk.readBytes path = .ok bytes) :
    ∃ executable, disk.status path = .ok (.file bytes executable) := by
  obtain ⟨found, _⟩ := answer_eq_ok done
  cases entry : disk.status path with
  | error cause => simp [entry] at found
  | ok there => cases there <;> simp_all

theorem reads_of_readBytes {bytes : ByteArray} (done : disk.readBytes path = .ok bytes) :
    ∃ loc, Reads disk path loc bytes := by
  obtain ⟨executable, found⟩ := readBytes_eq_ok done
  obtain ⟨loc, there⟩ := locate_of_status found
  exact ⟨loc, executable, there⟩

end Emplace.Disk
