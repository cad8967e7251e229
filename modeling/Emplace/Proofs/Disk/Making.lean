import Emplace.Proofs.Disk.Looking

/-!
What the making of directories leaves behind. Nothing that is there changes, and all that is new is
a directory to which the path that was asked for leads on its way. Asking a second time changes
nothing more and comes to the same.
-/
namespace Emplace.Disk

/-- Disks that differ by new directories alone, each of which the beginning of a path leads to. -/
structure MadeAlong (path : Path) (before after : Disk) : Prop where
  cwd : after.cwd = before.cwd
  places : ∀ loc, after.get? loc = before.get? loc ∨
    before.get? loc = none ∧ ∃ front, front <+: path.names ∧
      after.locate .target ⟨path.anchor, front⟩ = .ok (.present loc .directory) ∧
      after.get? loc = some .directory

variable {disk a b c : Disk} {path : Path}

theorem MadeAlong.refl (path : Path) (disk : Disk) : MadeAlong path disk disk :=
  ⟨rfl, fun _ => Or.inl rfl⟩

theorem MadeAlong.keeps (made : MadeAlong path a b) {loc : Location} {entry : Entry}
    (found : a.get? loc = some entry) : b.get? loc = some entry := by
  rcases made.places loc with same | ⟨free, _⟩
  · rwa [same]
  · rw [found] at free
    cases free

/-- Disks that hold the same give the same answers. -/
theorem Same.locate_eq (same : Same a b) (aim : Aim) (path : Path) :
    b.locate aim path = a.locate aim path := by
  unfold locate
  rw [← same.1, chase_congr aim linkLimit _ _ fun place _ => (same.2 place).symm]

theorem MadeAlong.congr (made : MadeAlong path a b) (same : Same b c) : MadeAlong path a c := by
  refine ⟨same.1.symm.trans made.cwd, fun loc => ?_⟩
  rw [← same.2 loc]
  rcases made.places loc with kept | ⟨free, front, upTo, leads, there⟩
  · exact Or.inl kept
  · exact Or.inr ⟨free, front, upTo, (same.locate_eq _ _).trans leads, there⟩

/-- One more directory on the way of the path. -/
theorem MadeAlong.put (made : MadeAlong path a b) {front : List String} {dir : Location}
    {name : String} (upTo : front <+: path.names)
    (found : b.locate .self ⟨path.anchor, front⟩ = .ok (.absent dir name)) :
    MadeAlong path a (b.put (dir ++ [name]) .directory) := by
  have free := (locate_absent found).2
  have growth := grows_put_directory b free
  refine ⟨made.cwd, fun loc => ?_⟩
  by_cases here : loc = dir ++ [name]
  · subst here
    refine Or.inr ⟨?_, front, upTo, locate_made found, get?_put_same b _ (by simp)⟩
    rcases made.places (dir ++ [name]) with same | ⟨before, _⟩
    · rwa [← same]
    · exact before
  · rw [get?_put_other b _ here]
    rcases made.places loc with same | ⟨before, above, onWay, leads, there⟩
    · exact Or.inl same
    · exact Or.inr ⟨before, above, onWay, locate_directory_grows growth leads, there⟩

theorem ensureDirectory_madeAlong (disk : Disk) (path : Path) :
    MadeAlong path disk (disk.ensureDirectory path).1 :=
  ensureDirectory_keeps path
    (fun _ _ _ _ upTo made found => made.put upTo found) (.refl path disk)

/-! ### Making again -/

/-- What names lead to, a last one that is not empty included, is in a directory that the names before
it enter. -/
theorem Finds.enters_parent {aim : Aim} {links : Nat} {dir : Location} {names : List String}
    {last : String} {spot : Spot} (finds : Finds disk aim links dir (names ++ [last]) spot)
    (some : last ≠ "") : ∃ left out, Enters disk links dir names left out := by
  generalize whole : names ++ [last] = all at finds
  induction finds generalizing names with
  | here => simp at whole
  | @idle links dir name rest _ pass _ ih =>
      cases names with
      | nil => exact ⟨links, dir, .here links dir⟩
      | cons head more =>
          obtain ⟨rfl, tail⟩ := List.cons_eq_cons.mp whole
          obtain ⟨left, out, enters⟩ := ih tail
          exact ⟨left, out, .idle pass enters⟩
  | @up links dir rest _ _ ih =>
      cases names with
      | nil => exact ⟨links, dir, .here links dir⟩
      | cons head more =>
          obtain ⟨rfl, tail⟩ := List.cons_eq_cons.mp whole
          obtain ⟨left, out, enters⟩ := ih tail
          exact ⟨left, out, .up enters⟩
  | @enter links dir name rest _ ordinary short _ found _ ih =>
      cases names with
      | nil => exact ⟨links, dir, .here links dir⟩
      | cons head more =>
          obtain ⟨rfl, tail⟩ := List.cons_eq_cons.mp whole
          obtain ⟨left, out, enters⟩ := ih tail
          exact ⟨left, out, .enter ordinary short found enters⟩
  | @follow links dir name target rest _ ordinary short _ found _ _ ih =>
      cases names with
      | nil => exact ⟨links + 1, dir, .here (links + 1) dir⟩
      | cons head more =>
          obtain ⟨rfl, tail⟩ := List.cons_eq_cons.mp whole
          have longer : ((Path.raw target).names ++ more) ++ [last] =
              (Path.raw target).names ++ rest := by
            rw [List.append_assoc]
            exact congrArg _ tail
          obtain ⟨left, out, enters⟩ := ih longer
          exact ⟨left, out, .follow ordinary short found enters⟩
  | @free links dir name rest _ _ _ _ empty =>
      cases names with
      | nil => exact ⟨links, dir, .here links dir⟩
      | cons head more =>
          obtain ⟨rfl, tail⟩ := List.cons_eq_cons.mp whole
          rw [← tail] at empty
          simp [some] at empty
  | @last links dir name =>
      cases names with
      | nil => exact ⟨links, dir, .here links dir⟩
      | cons head more => simp at whole

/-- A directory is also found where a link at the end would not be followed. -/
theorem Finds.self {links : Nat} {dir : Location} {names : List String} {out : Location}
    (finds : Finds disk .target links dir names (.present out .directory)) :
    ∃ loc entry, Finds disk .self links dir names (.present loc entry) := by
  generalize whole : Spot.present out .directory = spot at finds
  induction finds with
  | here links dir => exact ⟨dir, .directory, .here links dir⟩
  | idle pass _ ih =>
      obtain ⟨loc, entry, finds⟩ := ih whole
      exact ⟨loc, entry, .idle pass finds⟩
  | up _ ih =>
      obtain ⟨loc, entry, finds⟩ := ih whole
      exact ⟨loc, entry, .up finds⟩
  | enter ordinary short _ found _ ih =>
      obtain ⟨loc, entry, finds⟩ := ih whole
      exact ⟨loc, entry, .enter ordinary short (by simp) found finds⟩
  | @follow _ _ _ target rest _ ordinary short _ found _ _ ih =>
      obtain ⟨loc, entry, finds⟩ := ih whole
      by_cases ends : rest = []
      · subst ends
        exact ⟨_, .link target, .last ordinary short found (by simp) (by simp)⟩
      · exact ⟨loc, entry, .follow ordinary short (by simp) found (by simp [ends]) finds⟩
  | free => cases whole
  | last ordinary short found other self =>
      cases whole
      exact absurd rfl other

theorem join_snoc_size (names : List String) (last : String) :
    (Text.join "/" names).utf8ByteSize ≤ (Text.join "/" (names ++ [last])).utf8ByteSize := by
  induction names with
  | nil => simp [Text.join]
  | cons name rest ih =>
      cases rest with
      | nil => simp [Text.join, String.utf8ByteSize_append]; omega
      | cons next more =>
          simp only [Text.join, List.cons_append, String.utf8ByteSize_append] at ih ⊢
          omega

/-- The text of a path is no longer than that of an entry of it. -/
theorem text_entry_size (path : Path) {last : String} (some : last ≠ "") :
    path.text.utf8ByteSize ≤ (path.entry last).text.utf8ByteSize := by
  have longer := join_snoc_size path.names last
  have one : 1 ≤ last.utf8ByteSize := by
    rcases Nat.eq_zero_or_pos last.utf8ByteSize with none | more
    · exact absurd (String.utf8ByteSize_eq_zero_iff.mp none) some
    · exact more
  unfold Path.text
  split
  · rename_i top
    simp [Path.entry, top.1, top.2, Text.join, Anchor.text]
    exact one
  · simp [Path.entry, String.utf8ByteSize_append]
    omega

/-- Whatever a path is followed for, its parent is a directory where it leads to something or to a
free name. -/
theorem locate_parent {aim : Aim} {last : String} {spot : Spot} (some : last ≠ "")
    (found : disk.locate aim (path.entry last) = .ok spot) :
    ∃ loc, disk.locate .target path = .ok (.present loc .directory) := by
  obtain ⟨short, finds⟩ := locate_eq_ok_iff.mp found
  obtain ⟨left, out, enters⟩ := finds.enters_parent some
  exact ⟨out, (locate_directory_iff _ _).mpr
    ⟨Nat.le_trans (text_entry_size path some) short, left, enters⟩⟩

theorem isDirectory_of_locate {loc : Location} (clear : hasNull path = false)
    (found : disk.locate .target path = .ok (.present loc .directory)) :
    disk.isDirectory path = .ok true := by
  simp [isDirectory, holds, clear, status, found]

/-- A directory that is there is not made again. -/
theorem ensureDirectory_present {loc : Location} (clear : hasNull path = false)
    (found : disk.locate .target path = .ok (.present loc .directory)) :
    disk.ensureDirectory path = (disk, .ok ()) := by
  obtain ⟨short, finds⟩ := locate_eq_ok_iff.mp found
  obtain ⟨there, entry, self⟩ := finds.self
  have spot := locate_eq_ok_iff.mpr ⟨short, self⟩
  have refused : disk.makeDirectory path = .error (.system ⟨.exists, path.text⟩) := by
    simp [makeDirectory, spot, answer, clear]
  have accepted := isDirectory_of_locate clear found
  obtain ⟨anchor, names⟩ := path
  rcases List.eq_nil_or_concat names with rfl | ⟨above, last, rfl⟩
  · simp [ensureDirectory, ensureNames, ensureLast, refused, acceptPresent, accepted]
  · simp only [List.concat_eq_append] at refused accepted
    simp [ensureDirectory, ensureNames, refused, acceptPresent, accepted]

theorem acceptPresent_eq_error {fault other : Fault}
    (failed : (disk.acceptPresent path fault).2 = .error other) :
    disk.acceptPresent path fault = (disk, .error other) :=
  Prod.ext (acceptPresent_fst fault) failed

theorem ensureLast_eq_error {fault : Fault} (failed : (disk.ensureLast path).2 = .error fault) :
    disk.ensureLast path = (disk, .error fault) := by
  unfold ensureLast at failed ⊢
  split at failed
  · cases failed
  · cases failed
    rfl
  · exact acceptPresent_eq_error failed
  · cases failed
    rfl

/-- Directories cannot be made because the last one is refused, because one above it is, or because
the last one is still refused once those above it are there. -/
theorem ensureNames_eq_error {anchor : Anchor} {name : String} {above : List String}
    {fault : Fault} (failed : (disk.ensureNames anchor (name :: above)).2 = .error fault) :
    disk.ensureNames anchor (name :: above) = (disk, .error fault) ∨
    (∃ part, disk.ensureNames anchor above = (part, .error fault) ∧
      disk.ensureNames anchor (name :: above) = (part, .error fault)) ∨
    ∃ part, disk.ensureNames anchor above = (part, .ok ()) ∧
      part.ensureLast ⟨anchor, (name :: above).reverse⟩ = (part, .error fault) ∧
      disk.ensureNames anchor (name :: above) = (part, .error fault) := by
  rw [ensureNames] at failed ⊢
  split at failed
  · cases failed
  · rcases outcome : disk.ensureNames anchor above with ⟨part, cause | _⟩
    · simp only [outcome] at failed
      cases failed
      exact Or.inr (Or.inl ⟨part, rfl, rfl⟩)
    · simp only [outcome] at failed
      have last := ensureLast_eq_error failed
      exact Or.inr (Or.inr ⟨part, rfl, last, last⟩)
  · exact Or.inl (acceptPresent_eq_error failed)
  · cases failed
    exact Or.inl rfl

/-- Where the directory above is there, only the last one is asked for. -/
theorem ensureNames_of_above {anchor : Anchor} {name : String} {above : List String}
    (there : disk.ensureNames anchor above = (disk, .ok ())) :
    disk.ensureNames anchor (name :: above) =
      disk.ensureLast ⟨anchor, (name :: above).reverse⟩ := by
  rw [ensureNames, ensureLast, there]
  split
  · rfl
  · rename_i refused
    simp only [ensureLast, refused]
  · rfl
  · rfl

/-- Nothing is made below what is no directory. -/
theorem ensureNames_below {anchor : Anchor} {name : String} {above : List String} {fault : Fault}
    (clear : Clear (name :: above)) (some : name ≠ "")
    (refused : disk.ensureNames anchor above = (disk, .error fault)) :
    ∃ other, disk.ensureNames anchor (name :: above) = (disk, .error other) := by
  have whole : hasNull ⟨anchor, (name :: above).reverse⟩ = false :=
    hasNull_eq_false fun other member => clear other (List.mem_reverse.mp member)
  have parent : hasNull ⟨anchor, above.reverse⟩ = false :=
    hasNull_eq_false fun other member =>
      clear other (List.mem_cons_of_mem _ (List.mem_reverse.mp member))
  -- If the path led anywhere, the one above it would be a directory.
  have nowhere : ∀ aim spot,
      disk.locate aim ⟨anchor, (name :: above).reverse⟩ ≠ .ok spot := by
    intro aim spot found
    rw [List.reverse_cons] at found
    have entry : disk.locate aim (Path.entry ⟨anchor, above.reverse⟩ name) = .ok spot := found
    obtain ⟨loc, there⟩ := locate_parent some entry
    have made := ensureDirectory_present parent there
    rw [ensureDirectory, List.reverse_reverse, refused] at made
    cases made
  have absent : ∀ fault, ∃ other,
      disk.acceptPresent ⟨anchor, (name :: above).reverse⟩ fault = (disk, .error other) := by
    intro fault
    rcases outcome : disk.acceptPresent ⟨anchor, (name :: above).reverse⟩ fault with
      ⟨after, other | _⟩
    · rw [← outcome]
      exact ⟨other, acceptPresent_eq_error (by rw [outcome])⟩
    · obtain ⟨loc, there⟩ := acceptPresent_eq_ok (by rw [outcome])
      exact absurd there (nowhere _ _)
  cases spot : disk.locate .self ⟨anchor, (name :: above).reverse⟩ with
  | ok there => exact absurd spot (nowhere _ _)
  | error cause =>
      have made : disk.makeDirectory ⟨anchor, (name :: above).reverse⟩ =
          .error (.system ⟨cause, (Path.mk anchor (name :: above).reverse).text⟩) := by
        simp only [makeDirectory, spot, answer, whole, Bool.false_eq_true, if_false]
      rw [ensureNames]
      simp only [made]
      cases cause with
      | noEntry => exact ⟨fault, by simp only [refused]⟩
      | _ => exact absent _

/-- What could not be made is not made by asking again either. -/
theorem ensureNames_stuck {anchor : Anchor} {names : List String} {fault : Fault}
    (clear : Clear names) (some : "" ∉ names)
    (failed : (disk.ensureNames anchor names).2 = .error fault) :
    ∃ other, (disk.ensureNames anchor names).1.ensureNames anchor names =
      ((disk.ensureNames anchor names).1, .error other) := by
  induction names generalizing fault with
  | nil =>
      have same : disk.ensureNames anchor [] = (disk, .error fault) := ensureLast_eq_error failed
      rw [same]
      exact ⟨fault, same⟩
  | cons name above ih =>
      simp only [List.mem_cons, not_or] at some
      have later : Clear above := fun other member => clear other (List.mem_cons_of_mem _ member)
      rcases ensureNames_eq_error failed with
        same | ⟨part, missing, same⟩ | ⟨part, ready, last, same⟩
      · rw [same]
        exact ⟨fault, same⟩
      · rw [same]
        obtain ⟨other, again⟩ := ih later some.2 (by rw [missing])
        rw [missing] at again
        exact ensureNames_below clear (Ne.symm some.1) again
      · rw [same]
        -- Those above are there by now, so only the last one is asked for.
        have parent : hasNull ⟨anchor, above.reverse⟩ = false :=
          hasNull_eq_false fun other member => later other (List.mem_reverse.mp member)
        have made : disk.ensureDirectory ⟨anchor, above.reverse⟩ = (part, .ok ()) := by
          rw [ensureDirectory, List.reverse_reverse, ready]
        obtain ⟨loc, there⟩ := ensureDirectory_eq_ok (by rw [made])
        rw [made] at there
        have again := ensureDirectory_present parent there
        rw [ensureDirectory, List.reverse_reverse] at again
        exact ⟨fault, (ensureNames_of_above again).trans last⟩

/-- Asking again for a directory changes nothing more and comes to the same. -/
theorem ensureDirectory_again (disk : Disk) (clear : hasNull path = false) (some : "" ∉ path.names) :
    ∃ result, (disk.ensureDirectory path).1.ensureDirectory path =
        ((disk.ensureDirectory path).1, result) ∧
      (result = .ok () ↔ (disk.ensureDirectory path).2 = .ok ()) := by
  cases outcome : (disk.ensureDirectory path).2 with
  | ok =>
      obtain ⟨loc, there⟩ := ensureDirectory_eq_ok outcome
      exact ⟨.ok (), ensureDirectory_present clear there, by simp⟩
  | error fault =>
      have names : Clear path.names.reverse := fun name member =>
        (hasNull_eq_false_iff path).mp clear name (List.mem_reverse.mp member)
      obtain ⟨other, again⟩ := ensureNames_stuck names (by simpa using some) outcome
      exact ⟨.error other, again, by simp⟩

end Emplace.Disk
