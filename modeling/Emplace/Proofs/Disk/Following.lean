import Emplace.Disk.Lookup
import Emplace.Proofs.Disk.Growth

/-!
Following names on a disk, one name at a time. `chase_induct` is the recursion of `chase`: a name is
passed over, goes up, enters a directory or is a link whose names come before the rest. `Enters` is
the part of a way on which every name leads to a directory; a longer way begins with it whatever it
is followed for.
-/
namespace Emplace.Disk

variable {disk : Disk} {aim : Aim} {links : Nat} {dir : Location} {name : String}
  {rest : List String}

theorem chase_nil (disk : Disk) (aim : Aim) (links : Nat) (dir : Location) :
    disk.chase aim links dir [] = .ok (.present dir .directory) := by
  unfold chase
  rfl

theorem chase_idle (idle : name = "." ∨ name = "") :
    disk.chase aim links dir (name :: rest) = disk.chase aim links dir rest := by
  unfold chase
  rw [descend, if_pos idle]

theorem chase_up :
    disk.chase aim links dir (".." :: rest) = disk.chase aim links dir.dropLast rest := by
  unfold chase
  rw [descend, if_neg (by decide), if_pos rfl]

/-- One name that stands for an entry. -/
theorem chase_ordinary (ordinary : Ordinary name) :
    disk.chase aim links dir (name :: rest) =
      if nameLimit < name.utf8ByteSize then .error .nameTooLong
      else if aim = .writing ∧ rest = [""] then .error .isDirectory
      else match disk.get? (dir ++ [name]) with
        | none => if rest.all (· = "") then .ok (.absent dir name) else .error .noEntry
        | some .directory => disk.chase aim links (dir ++ [name]) rest
        | some (.link target) =>
          if rest = [] ∧ aim = .self then .ok (.present (dir ++ [name]) (.link target))
          else match links with
            | 0 => .error .tooManyLinks
            | links + 1 =>
              disk.chase aim links (startOf dir (Path.raw target)) ((Path.raw target).names ++ rest)
        | some entry =>
          if rest = [] then .ok (.present (dir ++ [name]) entry) else .error .notDirectory := by
  obtain ⟨notEmpty, notDot, notUp⟩ := ordinary
  conv_lhs => rw [chase.eq_def]
  simp only [descend]
  rw [if_neg (by simp [notEmpty, notDot]), if_neg notUp]
  by_cases long : nameLimit < name.utf8ByteSize
  · simp [long]
  · by_cases asks : aim = .writing ∧ rest = [""]
    · simp [long, asks]
    · simp only [long, asks, if_false]
      cases disk.get? (dir ++ [name]) with
      | none => by_cases empty : rest.all (· = "") <;> simp [empty]
      | some entry =>
          cases entry with
          | directory => conv_rhs => rw [chase.eq_def]
          | file bytes executable => by_cases last : rest = [] <;> simp [last]
          | link target =>
              by_cases last : rest = [] ∧ aim = .self
              · simp [last]
              · cases links <;> simp [last]
          | pipe => by_cases last : rest = [] <;> simp [last]

theorem ordinary_of_not_idle (busy : ¬ (name = "." ∨ name = "")) (notUp : name ≠ "..") :
    Ordinary name :=
  ⟨fun empty => busy (Or.inr empty), fun dot => busy (Or.inl dot), notUp⟩

/-- The induction that follows `chase`: on the links that are left, then on the names. -/
theorem chase_induct (disk : Disk) {motive : Nat → Location → List String → Prop}
    (nil : ∀ links dir, motive links dir [])
    (idle : ∀ links dir name rest, name = "." ∨ name = "" → motive links dir rest →
      motive links dir (name :: rest))
    (up : ∀ links dir rest, motive links dir.dropLast rest → motive links dir (".." :: rest))
    (ordinary : ∀ links dir name rest, Ordinary name →
      (disk.get? (dir ++ [name]) = some .directory → motive links (dir ++ [name]) rest) →
      (∀ target fewer, disk.get? (dir ++ [name]) = some (.link target) → links = fewer + 1 →
        motive fewer (startOf dir (Path.raw target)) ((Path.raw target).names ++ rest)) →
      motive links dir (name :: rest))
    (links : Nat) (dir : Location) (names : List String) : motive links dir names := by
  -- A link that is followed puts the names of its target before the rest, so the names are only
  -- shorter as long as none is.
  induction links generalizing dir names with
  | zero =>
      induction names generalizing dir with
      | nil => exact nil 0 dir
      | cons name rest ih =>
          by_cases pass : name = "." ∨ name = ""
          · exact idle 0 dir name rest pass (ih dir)
          · by_cases isUp : name = ".."
            · subst isUp
              exact up 0 dir rest (ih dir.dropLast)
            · exact ordinary 0 dir name rest (ordinary_of_not_idle pass isUp)
                (fun _ => ih (dir ++ [name])) (fun _ _ _ none => by cases none)
  | succ links fewer =>
      induction names generalizing dir with
      | nil => exact nil (links + 1) dir
      | cons name rest ih =>
          by_cases pass : name = "." ∨ name = ""
          · exact idle (links + 1) dir name rest pass (ih dir)
          · by_cases isUp : name = ".."
            · subst isUp
              exact up (links + 1) dir rest (ih dir.dropLast)
            · exact ordinary (links + 1) dir name rest (ordinary_of_not_idle pass isUp)
                (fun _ => ih (dir ++ [name]))
                (fun target other _ same => by
                  obtain rfl : other = links := by omega
                  exact fewer _ _)

/-- What names lead to from a directory over so many links: a directory that all of them enter, a
name that is free, or an entry that ends the way. -/
inductive Finds (disk : Disk) (aim : Aim) : Nat → Location → List String → Spot → Prop where
  | here (links : Nat) (dir : Location) : Finds disk aim links dir [] (.present dir .directory)
  | idle {links : Nat} {dir : Location} {name : String} {rest : List String} {spot : Spot} :
      name = "." ∨ name = "" → Finds disk aim links dir rest spot →
      Finds disk aim links dir (name :: rest) spot
  | up {links : Nat} {dir : Location} {rest : List String} {spot : Spot} :
      Finds disk aim links dir.dropLast rest spot → Finds disk aim links dir (".." :: rest) spot
  | enter {links : Nat} {dir : Location} {name : String} {rest : List String} {spot : Spot} :
      Ordinary name → name.utf8ByteSize ≤ nameLimit → ¬ (aim = .writing ∧ rest = [""]) →
      disk.get? (dir ++ [name]) = some .directory → Finds disk aim links (dir ++ [name]) rest spot →
      Finds disk aim links dir (name :: rest) spot
  | follow {links : Nat} {dir : Location} {name target : String} {rest : List String}
      {spot : Spot} :
      Ordinary name → name.utf8ByteSize ≤ nameLimit → ¬ (aim = .writing ∧ rest = [""]) →
      disk.get? (dir ++ [name]) = some (.link target) → ¬ (rest = [] ∧ aim = .self) →
      Finds disk aim links (startOf dir (Path.raw target)) ((Path.raw target).names ++ rest) spot →
      Finds disk aim (links + 1) dir (name :: rest) spot
  | free {links : Nat} {dir : Location} {name : String} {rest : List String} :
      Ordinary name → name.utf8ByteSize ≤ nameLimit → ¬ (aim = .writing ∧ rest = [""]) →
      disk.get? (dir ++ [name]) = none → rest.all (· = "") →
      Finds disk aim links dir (name :: rest) (.absent dir name)
  | last {links : Nat} {dir : Location} {name : String} {entry : Entry} :
      Ordinary name → name.utf8ByteSize ≤ nameLimit → disk.get? (dir ++ [name]) = some entry →
      entry ≠ .directory → (∀ target, entry = .link target → aim = .self) →
      Finds disk aim links dir [name] (.present (dir ++ [name]) entry)

theorem finds_of_chase (links : Nat) (dir : Location) (names : List String) {spot : Spot}
    (found : disk.chase aim links dir names = .ok spot) : Finds disk aim links dir names spot := by
  induction links, dir, names using chase_induct disk with
  | nil links dir =>
      rw [chase_nil] at found
      cases found
      exact .here links dir
  | idle links dir name rest pass ih =>
      rw [chase_idle pass] at found
      exact .idle pass (ih found)
  | up links dir rest ih =>
      rw [chase_up] at found
      exact .up (ih found)
  | ordinary links dir name rest ordinary enter follow =>
      rw [chase_ordinary ordinary] at found
      split at found
      · cases found
      · rename_i long
        have short : name.utf8ByteSize ≤ nameLimit := Nat.le_of_not_lt long
        split at found
        · cases found
        · rename_i asks
          split at found
          · rename_i here
            split at found
            · rename_i empty
              cases found
              exact .free ordinary short asks here empty
            · cases found
          · rename_i here
            exact .enter ordinary short asks here (enter here found)
          · rename_i target here
            split at found
            · rename_i stays
              obtain ⟨rfl, self⟩ := stays
              cases found
              exact .last ordinary short here (by simp) fun _ _ => self
            · rename_i onward
              split at found
              · cases found
              · rename_i fewer
                exact .follow ordinary short asks here onward (follow target fewer here rfl found)
          · rename_i entry notDirectory notLink here
            split at found
            · rename_i ends
              subst ends
              cases found
              exact .last ordinary short here notDirectory fun target link =>
                absurd link (notLink target)
            · cases found

theorem Finds.chase {names : List String} {spot : Spot}
    (finds : Finds disk aim links dir names spot) :
    disk.chase aim links dir names = .ok spot := by
  induction finds with
  | here links dir => exact chase_nil disk aim links dir
  | idle pass _ ih => rw [chase_idle pass, ih]
  | up _ ih => rw [chase_up, ih]
  | enter ordinary short asks found _ ih =>
      rw [chase_ordinary ordinary, if_neg (by omega), if_neg asks, found]
      exact ih
  | follow ordinary short asks found onward _ ih =>
      rw [chase_ordinary ordinary, if_neg (by omega), if_neg asks, found]
      simp only [onward, if_false]
      exact ih
  | free ordinary short asks found empty =>
      rw [chase_ordinary ordinary, if_neg (by omega), if_neg asks, found]
      simp only [empty, if_true]
  | @last _ _ _ entry ordinary short found notDirectory self =>
      rw [chase_ordinary ordinary, if_neg (by omega), if_neg (by simp), found]
      cases entry with
      | directory => exact absurd rfl notDirectory
      | file bytes executable => simp
      | link target => simp [self target rfl]
      | pipe => simp

/-- The answer of the system at a path is what its names lead to, where the path is short enough. -/
theorem locate_eq_ok_iff {path : Path} {spot : Spot} : disk.locate aim path = .ok spot ↔
    path.text.utf8ByteSize ≤ pathLimit ∧
      Finds disk aim linkLimit (startOf disk.cwd path) path.names spot := by
  unfold locate
  by_cases long : pathLimit < path.text.utf8ByteSize
  · simp only [long, if_true, Nat.not_le.mpr long, false_and, reduceCtorEq]
  · simp only [long, if_false, Nat.le_of_not_lt long, true_and]
    exact ⟨finds_of_chase linkLimit _ _, Finds.chase⟩

/-- Names that lead from a directory to a directory, whatever comes behind them; the numbers are the
links that may be followed before and after. -/
inductive Enters (disk : Disk) : Nat → Location → List String → Nat → Location → Prop where
  | here (links : Nat) (dir : Location) : Enters disk links dir [] links dir
  | idle {links left : Nat} {dir out : Location} {name : String} {rest : List String} :
      name = "." ∨ name = "" → Enters disk links dir rest left out →
      Enters disk links dir (name :: rest) left out
  | up {links left : Nat} {dir out : Location} {rest : List String} :
      Enters disk links dir.dropLast rest left out → Enters disk links dir (".." :: rest) left out
  | enter {links left : Nat} {dir out : Location} {name : String} {rest : List String} :
      Ordinary name → name.utf8ByteSize ≤ nameLimit →
      disk.get? (dir ++ [name]) = some .directory →
      Enters disk links (dir ++ [name]) rest left out →
      Enters disk links dir (name :: rest) left out
  | follow {links left : Nat} {dir out : Location} {name target : String} {rest : List String} :
      Ordinary name → name.utf8ByteSize ≤ nameLimit →
      disk.get? (dir ++ [name]) = some (.link target) →
      Enters disk links (startOf dir (Path.raw target)) ((Path.raw target).names ++ rest) left out →
      Enters disk (links + 1) dir (name :: rest) left out

/-- What comes behind names that are entered: the aim can only tell where they are the last. -/
def GoesOn (aim : Aim) (more : List String) : Prop :=
  aim = .target ∨ more ≠ [] ∧ (aim = .writing → more ≠ [""])

theorem GoesOn.not_asks {more : List String} (onward : GoesOn aim more) (rest : List String) :
    ¬ (aim = .writing ∧ rest ++ more = [""]) := by
  rintro ⟨rfl, same⟩
  rcases onward with impossible | ⟨some, other⟩
  · cases impossible
  · rcases List.append_eq_singleton_iff.mp same with ⟨_, single⟩ | ⟨_, empty⟩
    · exact other rfl single
    · exact some empty

theorem GoesOn.not_last {more : List String} (onward : GoesOn aim more) (rest : List String) :
    ¬ (rest ++ more = [] ∧ aim = .self) := by
  rintro ⟨empty, rfl⟩
  rcases onward with impossible | ⟨some, _⟩
  · cases impossible
  · exact some (List.append_eq_nil_iff.mp empty).2

theorem Enters.chase {left : Nat} {out : Location} {names more : List String}
    (enters : Enters disk links dir names left out) (onward : GoesOn aim more) :
    disk.chase aim links dir (names ++ more) = disk.chase aim left out more := by
  induction enters with
  | here => rfl
  | idle pass _ ih =>
      rw [List.cons_append, chase_idle pass]
      exact ih
  | up _ ih =>
      rw [List.cons_append, chase_up]
      exact ih
  | @enter _ _ _ _ _ rest ordinary short found _ ih =>
      rw [List.cons_append, chase_ordinary ordinary, if_neg (by omega),
        if_neg (onward.not_asks rest), found]
      exact ih
  | @follow _ _ _ _ _ _ rest ordinary short found _ ih =>
      rw [List.cons_append, chase_ordinary ordinary, if_neg (by omega),
        if_neg (onward.not_asks rest), found]
      simp only [onward.not_last rest, if_false]
      rw [← List.append_assoc]
      exact ih

/-- Where a directory is found at the end of names, they are entered on the way to it. -/
theorem Finds.enters {names : List String} {out : Location}
    (finds : Finds disk .target links dir names (.present out .directory)) :
    ∃ left, Enters disk links dir names left out := by
  generalize whole : Spot.present out .directory = spot at finds
  induction finds with
  | here links dir =>
      cases whole
      exact ⟨links, .here links _⟩
  | idle pass _ ih =>
      obtain ⟨left, enters⟩ := ih whole
      exact ⟨left, .idle pass enters⟩
  | up _ ih =>
      obtain ⟨left, enters⟩ := ih whole
      exact ⟨left, .up enters⟩
  | enter ordinary short _ found _ ih =>
      obtain ⟨left, enters⟩ := ih whole
      exact ⟨left, .enter ordinary short found enters⟩
  | follow ordinary short _ found _ _ ih =>
      obtain ⟨left, enters⟩ := ih whole
      exact ⟨left, .follow ordinary short found enters⟩
  | free => cases whole
  | last _ _ _ notDirectory =>
      cases whole
      exact absurd rfl notDirectory

/-! ### Ways made of shorter ways -/

theorem Enters.append {middle left : Nat} {between out : Location} {names more : List String}
    (first : Enters disk links dir names middle between)
    (second : Enters disk middle between more left out) :
    Enters disk links dir (names ++ more) left out := by
  induction first with
  | here => exact second
  | idle pass _ ih => exact .idle pass (ih second)
  | up _ ih => exact .up (ih second)
  | enter ordinary short found _ ih => exact .enter ordinary short found (ih second)
  | follow ordinary short found _ ih =>
      apply Enters.follow ordinary short found
      have later := ih second
      rw [List.append_assoc] at later
      exact later

theorem Enters.split {left : Nat} {out : Location} {names more : List String}
    (enters : Enters disk links dir (names ++ more) left out) :
    ∃ middle between, Enters disk links dir names middle between ∧
      Enters disk middle between more left out := by
  -- The cut moves along with the way; where a link is followed, the names of its target come before
  -- it as well.
  generalize whole : names ++ more = all at enters
  induction enters generalizing names with
  | here links dir =>
      obtain ⟨rfl, rfl⟩ := List.append_eq_nil_iff.mp whole
      exact ⟨links, dir, .here links dir, .here links dir⟩
  | @idle links left dir out name rest pass enters ih =>
      cases names with
      | nil =>
          obtain rfl : more = name :: rest := whole
          exact ⟨links, dir, .here links dir, .idle pass enters⟩
      | cons head front =>
          obtain ⟨rfl, tail⟩ := List.cons_eq_cons.mp whole
          obtain ⟨middle, between, first, second⟩ := ih tail
          exact ⟨middle, between, .idle pass first, second⟩
  | @up links left dir out rest enters ih =>
      cases names with
      | nil =>
          obtain rfl : more = ".." :: rest := whole
          exact ⟨links, dir, .here links dir, .up enters⟩
      | cons head front =>
          obtain ⟨rfl, tail⟩ := List.cons_eq_cons.mp whole
          obtain ⟨middle, between, first, second⟩ := ih tail
          exact ⟨middle, between, .up first, second⟩
  | @enter links left dir out name rest ordinary short found enters ih =>
      cases names with
      | nil =>
          obtain rfl : more = name :: rest := whole
          exact ⟨links, dir, .here links dir, .enter ordinary short found enters⟩
      | cons head front =>
          obtain ⟨rfl, tail⟩ := List.cons_eq_cons.mp whole
          obtain ⟨middle, between, first, second⟩ := ih tail
          exact ⟨middle, between, .enter ordinary short found first, second⟩
  | @follow links left dir out name target rest ordinary short found enters ih =>
      cases names with
      | nil =>
          obtain rfl : more = name :: rest := whole
          exact ⟨links + 1, dir, .here (links + 1) dir, .follow ordinary short found enters⟩
      | cons head front =>
          obtain ⟨rfl, tail⟩ := List.cons_eq_cons.mp whole
          have longer : ((Path.raw target).names ++ front) ++ more =
              (Path.raw target).names ++ rest := by
            rw [List.append_assoc]
            exact congrArg _ tail
          obtain ⟨middle, between, first, second⟩ := ih longer
          exact ⟨middle, between, .follow ordinary short found first, second⟩

/-- A way is the same when more links may be followed. -/
theorem Enters.shift {left : Nat} {out : Location} {names : List String}
    (enters : Enters disk links dir names left out) (extra : Nat) :
    Enters disk (links + extra) dir names (left + extra) out := by
  induction enters with
  | here => exact .here _ _
  | idle pass _ ih => exact .idle pass ih
  | up _ ih => exact .up ih
  | enter ordinary short found _ ih => exact .enter ordinary short found ih
  | @follow links _ _ _ _ _ _ ordinary short found _ ih =>
      rw [Nat.add_right_comm]
      exact .follow ordinary short found ih

theorem Enters.of_idle {left : Nat} {out : Location} (pass : name = "." ∨ name = "")
    (enters : Enters disk links dir (name :: rest) left out) :
    Enters disk links dir rest left out := by
  cases enters with
  | idle _ later => exact later
  | up _ => simp at pass
  | enter ordinary _ _ _ => exact absurd pass (by simp [ordinary.1, ordinary.2.1])
  | follow ordinary _ _ _ => exact absurd pass (by simp [ordinary.1, ordinary.2.1])

theorem Enters.unique {left other : Nat} {out there : Location} {names : List String}
    (enters : Enters disk links dir names left out)
    (again : Enters disk links dir names other there) : left = other ∧ out = there := by
  induction enters with
  | here =>
      cases again
      exact ⟨rfl, rfl⟩
  | idle pass _ ih =>
      exact ih (again.of_idle pass)
  | up _ ih =>
      cases again with
      | idle pass _ => simp at pass
      | up later => exact ih later
      | enter ordinary _ _ _ => exact absurd rfl ordinary.2.2
      | follow ordinary _ _ _ => exact absurd rfl ordinary.2.2
  | enter ordinary _ found _ ih =>
      cases again with
      | idle pass _ => exact absurd pass (by simp [ordinary.1, ordinary.2.1])
      | up _ => exact absurd rfl ordinary.2.2
      | enter _ _ _ later => exact ih later
      | follow _ _ link _ =>
          rw [found] at link
          cases link
  | follow ordinary _ found _ ih =>
      cases again with
      | idle pass _ => exact absurd pass (by simp [ordinary.1, ordinary.2.1])
      | up _ => exact absurd rfl ordinary.2.2
      | enter _ _ directory _ =>
          rw [found] at directory
          cases directory
      | follow _ _ link later =>
          rw [found] at link
          cases link
          exact ih later

/-- The links that a way takes are as many, whatever number may be followed. -/
theorem Enters.same_cost {left more other : Nat} {out there : Location} {names : List String}
    (enters : Enters disk links dir names left out)
    (again : Enters disk more dir names other there) :
    links + other = more + left ∧ out = there := by
  -- With the same number of links before both ways, they are one and the same.
  have first := enters.shift more
  have second := again.shift links
  rw [Nat.add_comm more links] at second
  obtain ⟨same, here⟩ := first.unique second
  exact ⟨by omega, here⟩

theorem Enters.left_le {left : Nat} {out : Location} {names : List String}
    (enters : Enters disk links dir names left out) : left ≤ links := by
  induction enters with
  | here => exact Nat.le_refl _
  | idle _ _ ih => exact ih
  | up _ ih => exact ih
  | enter _ _ _ _ ih => exact ih
  | follow _ _ _ _ ih => omega

/-- Empty names, which only ask for a directory, change nothing where one is entered. -/
theorem enters_filter_iff {left : Nat} {out : Location} (names : List String) :
    Enters disk links dir (names.filter (· ≠ "")) left out ↔
      Enters disk links dir names left out := by
  induction names generalizing links dir with
  | nil => simp
  | cons name rest ih =>
      by_cases empty : name = ""
      · subst empty
        rw [List.filter_cons_of_neg (by simp), ih]
        constructor
        · exact fun enters => .idle (Or.inr rfl) enters
        · exact fun enters => enters.of_idle (Or.inr rfl)
      · rw [List.filter_cons_of_pos (by simpa using empty), ← List.singleton_append,
          ← List.singleton_append (l := rest)]
        constructor
        · intro enters
          obtain ⟨middle, between, first, second⟩ := enters.split
          exact first.append (ih.mp second)
        · intro enters
          obtain ⟨middle, between, first, second⟩ := enters.split
          exact first.append (ih.mpr second)

/-- From a directory names enter a directory. -/
theorem Enters.directory (sound : Sound disk) {left : Nat} {out : Location} {names : List String}
    (enters : Enters disk links dir names left out) (start : disk.get? dir = some .directory) :
    disk.get? out = some .directory := by
  induction enters with
  | here => exact start
  | idle _ _ ih => exact ih start
  | up _ ih => exact ih (sound.above_of_prefix start (List.dropLast_prefix _))
  | enter _ _ found _ ih => exact ih found
  | follow _ _ _ _ ih =>
      apply ih
      unfold startOf
      split
      · exact start
      · rfl

/-- The names of a way are free of the character that no entry has in its name. -/
theorem Enters.clear (sound : Sound disk) {left : Nat} {out : Location} {names : List String}
    (enters : Enters disk links dir names left out) : ∀ name ∈ names, '\x00' ∉ name.toList := by
  induction enters with
  | here => simp
  | idle pass _ ih =>
      intro name member
      rcases List.mem_cons.mp member with rfl | later
      · rcases pass with rfl | rfl <;> decide
      · exact ih name later
  | up _ ih =>
      intro name member
      rcases List.mem_cons.mp member with rfl | later
      · decide
      · exact ih name later
  | enter _ _ found _ ih =>
      intro name member
      rcases List.mem_cons.mp member with rfl | later
      · exact (sound.parent found).1.2.2
      · exact ih name later
  | follow _ _ found _ ih =>
      intro name member
      rcases List.mem_cons.mp member with rfl | later
      · exact (sound.parent found).1.2.2
      · exact ih name (List.mem_append_right _ later)

theorem Enters.grows {later : Disk} (growth : Grows disk later) {left : Nat} {out : Location}
    {names : List String} (enters : Enters disk links dir names left out) :
    Enters later links dir names left out := by
  induction enters with
  | here => exact .here _ _
  | idle pass _ ih => exact .idle pass ih
  | up _ ih => exact .up ih
  | enter ordinary short found _ ih => exact .enter ordinary short (growth.directory found) ih
  | follow ordinary short found _ ih =>
      exact .follow ordinary short ((growth.link_iff _ _).mpr found) ih

end Emplace.Disk
