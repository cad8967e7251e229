import Emplace.Proofs.Disk.Faults
import Emplace.Proofs.Disk.Legible
import Emplace.Proofs.Scan.Preserving
import Emplace.Proofs.Sorting

/-!
Where a walk fails without a stage to answer for it. Reading directories and making them is guarded;
whether a name leads to a file is asked without a guard, and the system refuses to answer where what
it is led to is too long. `looks` lists what is asked for, up to the point where the walk ends.
-/
namespace Emplace.Scan

open Disk

/-- The paths that `visitFiles` asks for. -/
def fileLooks (scan : Scan) (dir : Path) (disk : Disk) : List String → List Path
  | [] => []
  | name :: rest =>
    match hasEnding name scan.endings with
    | .error _ => []
    | .ok false => fileLooks scan dir disk rest
    | .ok true =>
      dir.entry name :: match disk.isFile (dir.entry name) with
        | .error _ => []
        | .ok _ => fileLooks scan dir disk rest

/-- The paths that `visitAll` asks for, with those of `visit`. -/
def allLooks (looks : Path → Progress → List (Disk × Path))
    (visit : Path → Progress → Progress × Except Failure Unit) (scan : Scan) (rel : Path) :
    Progress → List String → List (Disk × Path)
  | _, [] => []
  | progress, name :: rest =>
    if isLink progress.disk (scan.scratch.join (rel.entry name)) then
      allLooks looks visit scan rel progress rest
    else looks (rel.entry name) progress ++ match visit (rel.entry name) progress with
      | (_, .error _) => []
      | (progress, .ok ()) => allLooks looks visit scan rel progress rest

/-- The paths that `visit` asks for, each with the disk as it is then. -/
def looks (scan : Scan) : Nat → Path → Progress → List (Disk × Path)
  | 0, _, _ => []
  | depth + 1, rel, progress =>
    let dir := scan.scratch.join rel
    if hasNull dir then []
    else match progress.disk.list dir with
    | .error _ => []
    | .ok (loc, names) =>
      let (dirs, files) := (Sorting.sorted names).partition (leadsToDirectory progress.disk loc dir)
      match scan.mirror rel progress with
      | (_, .error _) => []
      | (progress, .ok ()) =>
        (scan.fileLooks dir progress.disk files).map (fun path => (progress.disk, path)) ++
          match scan.visitFiles rel dir progress files with
          | (_, .error _) => []
          | (progress, .ok ()) =>
            allLooks (looks scan depth) (visit scan depth) scan rel progress dirs

/-- The paths that a whole walk asks for. -/
def runLooks (scan : Scan) (disk : Disk) (registry : Registry) : List (Disk × Path) :=
  scan.looks (pathLimit + 1) ⟨.here, []⟩ ⟨disk, registry, [], 0⟩

/-- The system is led to a name or a path that is too long. -/
def TooLong (look : Disk × Path) : Prop := look.1.status look.2 = .error .nameTooLong

instance (look : Disk × Path) : Decidable (TooLong look) := by
  unfold TooLong
  infer_instance

variable {scan : Scan} {progress : Progress} {rel dir : Path}

theorem hasEnding_eq_ok (name : String) {endings : List Ending} (texts : .other ∉ endings) :
    ∃ ends, hasEnding name endings = .ok ends := by
  induction endings with
  | nil => exact ⟨false, rfl⟩
  | cons ending rest ih =>
      simp only [List.mem_cons, not_or] at texts
      cases ending with
      | other => exact absurd rfl texts.1
      | broken => exact ih texts.2
      | text tail =>
          rw [hasEnding]
          split
          · exact ⟨true, rfl⟩
          · exact ih texts.2

theorem visitFiles_faulty_iff (rel : Path) (progress : Progress) (texts : .other ∉ scan.endings)
    (clear : hasNull dir = false) {names : List String} (good : Clear names) :
    Faulty (scan.visitFiles rel dir progress names).2 ↔
      ∃ path ∈ scan.fileLooks dir progress.disk names, TooLong (progress.disk, path) := by
  induction names generalizing progress with
  | nil => simp [visitFiles, fileLooks]
  | cons name rest ih =>
      have later : Clear rest := fun other member => good other (List.mem_cons_of_mem _ member)
      have whole := hasNull_entry clear (good name List.mem_cons_self)
      rw [visitFiles, fileLooks]
      obtain ⟨ends, known⟩ := hasEnding_eq_ok name texts
      rw [known]
      cases ends with
      | false => exact ih _ later
      | true =>
          have refused := isFile_fault_iff progress.disk whole
          dsimp only
          cases found : progress.disk.isFile (dir.entry name) with
          | error fault =>
              have long := refused.mp ⟨fault, found⟩
              simp [TooLong, long]
          | ok there =>
              have short : ¬ TooLong (progress.disk, dir.entry name) := by
                intro long
                obtain ⟨fault, failed⟩ := refused.mpr long
                rw [found] at failed
                cases failed
              rw [List.exists_mem_cons_iff, or_iff_right short]
              cases there with
              | false => exact ih _ later
              | true => exact ih _ later

/-- A failure that one visit ends with exactly where it looks at something of a kind is that of going
through all directories. -/
theorem visitAll_fails_iff {looks : Path → Progress → List (Disk × Path)}
    {visit : Path → Progress → Progress × Except Failure Unit} {names : List String}
    {Fails : Except Failure Unit → Prop} {Kind : Disk × Path → Prop} (Kept : Progress → Prop)
    (free : ¬ Fails (.ok ())) (kept : Kept progress)
    (each : ∀ name ∈ names, ∀ progress, Kept progress →
      Kept (visit (rel.entry name) progress).1 ∧
        (Fails (visit (rel.entry name) progress).2 ↔
          ∃ look ∈ looks (rel.entry name) progress, Kind look)) :
    Fails (visitAll visit scan rel progress names).2 ↔
      ∃ look ∈ allLooks looks visit scan rel progress names, Kind look := by
  induction names generalizing progress with
  | nil => simp [visitAll, allLooks, free]
  | cons name rest ih =>
      have later := fun other member => each other (List.mem_cons_of_mem name member)
      rw [visitAll, allLooks]
      split
      · exact ih kept later
      · obtain ⟨kept, here⟩ := each name List.mem_cons_self progress kept
        rcases outcome : visit (rel.entry name) progress with ⟨next, failure | _⟩
        · rw [outcome] at here
          simpa using here
        · rw [outcome] at kept here
          have none := mt here.mpr free
          simp only [List.mem_append, or_and_right, exists_or, none, false_or]
          exact ih kept later

theorem list_clear {names : List String} {loc : Location} (legible : Legible progress.disk)
    (listed : progress.disk.list dir = .ok (loc, names)) : Clear names := by
  unfold Disk.list at listed
  split at listed
  · cases listed
  · cases listed
    intro name member
    obtain ⟨entry, there⟩ := Option.isSome_iff_exists.mp ((mem_names_iff _ _ _).mp member)
    exact legible.names _ entry there name (by simp)
  · cases listed
  · cases listed

theorem clear_partition {names dirs files : List String} {test : String → Bool}
    (good : Clear names) (parted : names.partition test = (dirs, files)) :
    Clear dirs ∧ Clear files := by
  rw [List.partition_eq_filter_filter, Prod.mk.injEq] at parted
  obtain ⟨rfl, rfl⟩ := parted
  exact ⟨fun name member => good name (List.mem_of_mem_filter member),
    fun name member => good name (List.mem_of_mem_filter member)⟩

theorem mirror_not_faulty (progress : Progress) (root : hasNull scan.root = false)
    (clear : hasNull rel = false) : ¬ Faulty (scan.mirror rel progress).2 := by
  have whole := hasNull_join root clear
  unfold mirror
  split
  · exact not_faulty_ok ()
  · rcases made : progress.disk.ensureDirectory (scan.root.join rel) with ⟨disk, fault | _⟩
    · exact not_faulty_blame (ensureDirectory_fault whole (by rw [made])) _
    · exact not_faulty_ok ()

theorem keeps_legible (root : hasNull scan.root = false) :
    scan.Keeps fun progress => Legible progress.disk :=
  scan.keeps_disk fun _ _ clear legible => ensureDirectory_legible legible (hasNull_join root clear)

/-- A visit fails without a stage exactly where one of the paths that it asks for leads to something
that is too long. -/
theorem visit_faulty_iff (root : hasNull scan.root = false) (texts : .other ∉ scan.endings)
    (depth : Nat) (anchor : rel.anchor = .here) (clear : hasNull (scan.scratch.join rel) = false)
    (legible : Legible progress.disk) :
    Faulty (scan.visit depth rel progress).2 ↔
      ∃ look ∈ scan.looks depth rel progress, TooLong look := by
  induction depth generalizing rel progress with
  | zero => simp [visit, looks]
  | succ depth ih =>
      rw [visit, looks]
      simp only [clear, Bool.false_eq_true, if_false]
      rcases listed : progress.disk.list (scan.scratch.join rel) with cause | ⟨loc, names⟩
      · simp
      · have good : Clear (Sorting.sorted names) := fun name member =>
          list_clear legible listed name ((Sorting.sorted_perm names).mem_iff.mp member)
        have relClear := hasNull_of_join anchor clear
        have guarded := mirror_not_faulty progress root relClear
        have made := (keeps_legible root).mirror rel progress anchor relClear legible
        dsimp only
        rcases parted : (Sorting.sorted names).partition
          (leadsToDirectory progress.disk loc (scan.scratch.join rel)) with ⟨dirs, files⟩
        obtain ⟨clearDirs, clearFiles⟩ := clear_partition good parted
        rcases mirrored : scan.mirror rel progress with ⟨next, failure | _⟩
        · rw [mirrored] at guarded
          simpa using guarded
        · rw [mirrored] at made
          have here := visitFiles_faulty_iff rel next texts clear clearFiles
          have fed := (keeps_legible root).visitFiles rel (scan.scratch.join rel) made files
          dsimp only
          rcases taken : scan.visitFiles rel (scan.scratch.join rel) next files with
            ⟨last, failure | _⟩
          · rw [taken] at here
            simpa using here
          · rw [taken] at here fed
            have none := not_of_faulty_ok_iff here
            simp only [List.mem_append, List.mem_map, or_and_right, exists_or]
            rw [or_iff_right (by
              rintro ⟨look, ⟨path, member, rfl⟩, long⟩
              exact none ⟨path, member, long⟩)]
            -- Each directory below is visited with the disk that the ones before it left.
            refine visitAll_fails_iff (fun progress => Legible progress.disk) (not_faulty_ok ()) fed
              fun name member progress legible => ?_
            have below : hasNull (scan.scratch.join (rel.entry name)) = false := by
              rw [Path.join_entry scan.scratch rel name anchor]
              exact hasNull_entry clear (clearDirs name member)
            have under : (rel.entry name).anchor = .here := anchor
            exact ⟨(keeps_legible root).visit depth under legible, ih under below legible⟩

theorem run_faulty_iff (scan : Scan) (root : hasNull scan.root = false)
    (scratch : hasNull scan.scratch = false) (texts : .other ∉ scan.endings) {disk : Disk}
    (legible : Legible disk) (registry : Registry) :
    Faulty (scan.run disk registry).2 ↔ ∃ look ∈ scan.runLooks disk registry, TooLong look :=
  visit_faulty_iff root texts _ rfl (by simpa [Path.join] using scratch) legible

end Emplace.Scan
