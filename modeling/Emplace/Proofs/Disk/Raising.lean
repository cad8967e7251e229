import Emplace.Proofs.Disk.Calls

/-!
Disks on which nothing but directories is made. Whatever is found on such a disk stays found: a way
that led to a directory or to a file leads to the same one afterwards, and what is new is a directory.
-/
namespace Emplace.Disk

/-- A disk that has grown by directories alone. -/
structure Raised (before after : Disk) : Prop where
  grows : Grows before after
  places : ∀ loc, Spared before after loc

/-- A disk on which every entry stands under an ordinary name. -/
def Named (disk : Disk) : Prop :=
  ∀ loc name entry, disk.get? (loc ++ [name]) = some entry → Ordinary name

variable {a b c disk : Disk} {path : Path} {loc : Location}

theorem Raised.refl (disk : Disk) : Raised disk disk := ⟨.refl disk, fun _ => Or.inl rfl⟩

theorem Raised.trans (first : Raised a b) (second : Raised b c) : Raised a c :=
  ⟨first.grows.trans second.grows, fun loc => (first.places loc).trans (second.places loc)⟩

theorem Raised.kept (raised : Raised a b) {entry : Entry} (found : a.get? loc = some entry) :
    b.get? loc = some entry := by
  rcases raised.places loc with same | ⟨free, _⟩
  · rw [same, found]
  · rw [free] at found
    cases found

/-- What is no directory was there before. -/
theorem Raised.before (raised : Raised a b) {entry : Entry} (found : b.get? loc = some entry)
    (other : entry ≠ .directory) : a.get? loc = some entry := by
  rcases raised.places loc with same | ⟨_, made⟩
  · rw [← same, found]
  · rw [found] at made
    cases made
    exact absurd rfl other

theorem raised_ensureDirectory (disk : Disk) (path : Path) :
    Raised disk (disk.ensureDirectory path).1 :=
  ⟨ensureDirectory_grows disk path, ensureDirectory_spares disk path⟩

theorem Raised.status_file (raised : Raised a b) {bytes : ByteArray} {executable : Bool}
    (file : a.status path = .ok (.file bytes executable)) :
    b.status path = .ok (.file bytes executable) := by
  obtain ⟨loc, found⟩ := locate_of_status file
  obtain ⟨short, finds⟩ := locate_eq_ok_iff.mp found
  have there := raised.kept (finds.get?_present (by simp)).2
  have again : b.locate .target path = .ok (.present loc (.file bytes executable)) := by
    refine locate_eq_ok_iff.mpr ⟨short, ?_⟩
    rw [raised.grows.cwd]
    exact finds.file raised.grows.keepsWays there
  rw [status, again]

theorem status_directory_grows (growth : Grows a b) (found : a.status path = .ok .directory) :
    b.status path = .ok .directory := by
  obtain ⟨loc, there⟩ := locate_of_status found
  rw [status, locate_directory_grows growth there]

theorem Sound.named (sound : Sound disk) : Named disk :=
  fun _ _ _ found => (sound.parent found).1.1

theorem Named.ensureDirectory (named : Named disk) (path : Path) :
    Named (disk.ensureDirectory path).1 := by
  apply ensureDirectory_keeps (motive := Named) path _ named
  intro part front dir last _ kept found loc name entry there
  by_cases here : loc ++ [name] = dir ++ [last]
  · obtain ⟨-, same⟩ := List.append_inj' here rfl
    cases same
    exact (locate_absent found).1
  · rw [get?_put_other part _ here] at there
    exact kept loc name entry there

end Emplace.Disk
