import Emplace.Proofs.Disk.Calls
import Emplace.Proofs.Disk.Settling

/-!
Disks on which no name and no link holds the character that ends names, as on every file system. A
path without it never leads to it there, and is only refused a location where the system meets a
circle of links on what is left of it.
-/
namespace Emplace.Disk

structure Legible (disk : Disk) : Prop where
  cwd : Clear disk.cwd
  names : ∀ loc entry, disk.get? loc = some entry → Clear loc
  targets : ∀ loc target, disk.get? loc = some (.link target) → '\x00' ∉ target.toList

variable {disk : Disk} {path : Path}

theorem legible_of_rows (cwd : Clear disk.cwd) (names : ∀ row ∈ disk.entries, Clear row.1)
    (targets : ∀ row ∈ disk.entries, match row.2 with
      | .link target => '\x00' ∉ target.toList
      | _ => True) : Legible disk := by
  refine ⟨cwd, fun loc entry found => ?_, fun loc target found => ?_⟩
  · cases loc with
    | nil => simp [Clear]
    | cons name rest => exact names _ (mem_of_lookup found)
  · exact targets _ (mem_of_get?_link found)

theorem Legible.put (legible : Legible disk) {loc : Location} {entry : Entry} (clear : Clear loc)
    (below : loc ≠ []) (plain : ∀ target, entry ≠ .link target) :
    Legible (disk.put loc entry) := by
  refine ⟨legible.cwd, fun other held found => ?_, fun other target found => ?_⟩
  · by_cases here : other = loc
    · rwa [here]
    · rw [get?_put_other disk _ here] at found
      exact legible.names other held found
  · by_cases here : other = loc
    · rw [here, get?_put_same disk _ below, Option.some.injEq] at found
      exact absurd found (plain target)
    · rw [get?_put_other disk _ here] at found
      exact legible.targets other target found

theorem clear_startOf {dir : Location} (clear : Clear dir) (path : Path) :
    Clear (startOf dir path) := by
  unfold startOf
  split
  · exact clear
  · simp [Clear]

theorem Clear.snoc {dir : Location} (clear : Clear dir) {name : String}
    (good : '\x00' ∉ name.toList) : Clear (dir ++ [name]) := by
  intro other member
  rcases List.mem_append.mp member with early | late
  · exact clear other early
  · rwa [List.mem_singleton.mp late]

theorem hasNull_entry (clear : hasNull path = false) {name : String}
    (good : '\x00' ∉ name.toList) : hasNull (path.entry name) = false :=
  hasNull_eq_false (((hasNull_eq_false_iff path).mp clear).snoc good)

/-- What is found at the end of a path has none of the character in its names. -/
theorem Finds.clear (legible : Legible disk) {aim : Aim} {links : Nat} {dir : Location}
    {names : List String} {spot : Spot} (finds : Finds disk aim links dir names spot)
    (start : Clear dir) (clear : Clear names) : Clear spot.place := by
  induction finds with
  | here => exact start
  | idle _ _ ih => exact ih start fun other member => clear other (List.mem_cons_of_mem _ member)
  | up _ ih =>
      exact ih (fun other member => start other (List.mem_of_mem_dropLast member))
        fun other member => clear other (List.mem_cons_of_mem _ member)
  | enter _ _ _ _ _ ih =>
      exact ih (start.snoc (clear _ List.mem_cons_self))
        fun other member => clear other (List.mem_cons_of_mem _ member)
  | follow _ _ _ found _ _ ih =>
      apply ih (clear_startOf start _)
      intro other member
      rcases List.mem_append.mp member with early | late
      · exact clear_raw (legible.targets _ _ found) other early
      · exact clear other (List.mem_cons_of_mem _ late)
  | free => exact start.snoc (clear _ List.mem_cons_self)
  | last => exact start.snoc (clear _ List.mem_cons_self)

theorem clear_of_locate (legible : Legible disk) (clear : hasNull path = false) {aim : Aim}
    {spot : Spot} (found : disk.locate aim path = .ok spot) : Clear spot.place :=
  (locate_eq_ok_iff.mp found).2.clear legible (clear_startOf legible.cwd path)
    ((hasNull_eq_false_iff path).mp clear)

theorem ensureDirectory_legible (legible : Legible disk) (clear : hasNull path = false) :
    Legible (disk.ensureDirectory path).1 := by
  apply ensureDirectory_keeps (motive := Legible) path _ legible
  intro part front dir name upTo legible found
  have front_clear : hasNull ⟨path.anchor, front⟩ = false :=
    hasNull_eq_false fun other member =>
      (hasNull_eq_false_iff path).mp clear other (upTo.subset member)
  have place : Clear (dir ++ [name]) := clear_of_locate legible front_clear found
  exact legible.put place (by simp) (by simp)

theorem writeBytes_legible (legible : Legible disk) (clear : hasNull path = false)
    {bytes : ByteArray} {written : Disk} (done : disk.writeBytes path bytes = .ok written) :
    Legible written := by
  obtain ⟨spot, executable, found, rfl, below, _⟩ := writeBytes_eq_ok done
  exact legible.put (clear_of_locate legible clear found) below (by simp)

/-! ### Locations of paths -/

theorem pushPiece_clear {anchored : Bool} {stack : List String} {piece : String}
    (clear : Clear stack) (good : '\x00' ∉ piece.toList) :
    Clear (Path.pushPiece anchored stack piece) := by
  intro name member
  rcases Path.mem_of_mem_pushPiece member with old | rfl
  · exact clear name old
  · exact good

theorem foldl_push_clear {trail : Trail} (clear : Clear trail.stack) {pieces : List String}
    (good : Clear pieces) : Clear (pieces.foldl Trail.push trail).stack := by
  induction pieces generalizing trail with
  | nil => exact clear
  | cons piece rest ih =>
      have first : Clear (trail.push piece).stack :=
        pushPiece_clear clear (good piece List.mem_cons_self)
      exact ih first fun name member => good name (List.mem_cons_of_mem _ member)

theorem finish_clear {trail : Trail} (clear : Clear trail.stack) {pieces : List String}
    (good : Clear pieces) : Clear (trail.finish pieces).stack := by
  unfold Trail.finish
  split
  · apply foldl_push_clear (by simp [Clear])
    exact fun name member => good name (List.mem_cons_of_mem _ member)
  · exact foldl_push_clear clear good

theorem start_clear {trail : Trail} (clear : Clear trail.stack) (path : Path) :
    Clear (trail.start path).stack := by
  unfold Trail.start
  split
  · exact clear
  · simp [Clear]

theorem location_clear {cwd : Location} (plain : Clear cwd) {trail : Trail}
    (clear : Clear trail.stack) : Clear (trail.location cwd) := by
  obtain ⟨anchored, stack⟩ := trail
  have names : Clear (Trail.names cwd ⟨anchored, stack⟩) := by
    induction stack with
    | nil =>
        cases anchored with
        | true => simp [Trail.names, Clear]
        | false => exact fun name member => plain name (List.mem_reverse.mp member)
    | cons piece below ih =>
        rw [Trail.names_cons]
        exact pushPiece_clear (ih fun name member => clear name (List.mem_cons_of_mem _ member))
          (clear piece List.mem_cons_self)
  rw [Trail.location_eq]
  exact fun name member => names name (List.mem_reverse.mp member)

theorem settleNames_clear (legible : Legible disk) {follow : Trail → Trail → String → Settled}
    (follows : ∀ dir here target, Clear dir.stack → Clear here.stack → '\x00' ∉ target.toList →
      Clear (follow dir here target).trail.stack)
    {trail : Trail} (clear : Clear trail.stack) {names : List String} (good : Clear names) :
    ∃ found, settleNames disk follow trail names = .ok found ∧ Clear found.trail.stack := by
  induction names generalizing trail with
  | nil => exact ⟨_, by rw [settleNames], clear⟩
  | cons name rest ih =>
      have here := good name List.mem_cons_self
      have pushed : Clear (trail.push name).stack := pushPiece_clear clear here
      have later : Clear rest := fun other member => good other (List.mem_cons_of_mem _ member)
      rw [settleNames]
      split
      · exact ih pushed later
      · rw [if_neg (by simpa using here)]
        dsimp only
        split
        · rename_i target link
          have turn := follows trail (trail.push name) target clear pushed
            (legible.targets _ _ link)
          split
          · exact ih turn later
          · exact ⟨_, rfl, finish_clear turn later⟩
        · exact ih pushed later

theorem settleLink_clear (legible : Legible disk) (depth : Nat) (followed : List Trail)
    (dir here : Trail) (target : String) (first : Clear dir.stack) (second : Clear here.stack)
    (good : '\x00' ∉ target.toList) :
    Clear (settleLink disk depth followed dir here target).trail.stack := by
  induction depth generalizing followed dir here target with
  | zero => exact second
  | succ depth ih =>
      rw [settleLink]
      split
      · exact second
      · have turn : ∃ found, settleNames disk (settleLink disk depth (here :: followed))
            (dir.start (Path.raw target)) (Text.split '/' target) = .ok found ∧
              Clear found.trail.stack :=
          settleNames_clear legible (ih (here :: followed))
            (start_clear first (Path.raw target)) (clear_split good)
        obtain ⟨found, settled, clear⟩ := turn
        rw [settled]
        exact clear

/-- A path that the system still finds in a circle of links once it is worked out. -/
def Looping (disk : Disk) (path : Path) : Prop :=
  ∃ found, disk.settle path = .ok found ∧
    disk.status (pathOf (found.trail.location disk.cwd)) = .error .tooManyLinks

instance (disk : Disk) (path : Path) : Decidable (Looping disk path) :=
  match same : disk.settle path with
  | .ok found => decidable_of_iff
      (disk.status (pathOf (found.trail.location disk.cwd)) = .error .tooManyLinks)
      (by simp [Looping, same])
  | .error _ => .isFalse (by simp [Looping, same])

/-- A path without the character has a location unless the system finds it in a circle of links. -/
theorem canonical_fault_iff (legible : Legible disk) (clear : hasNull path = false) :
    (∃ fault, disk.canonical path = .error fault) ↔ Looping disk path := by
  have start : Clear (Trail.start ⟨false, []⟩ path).stack := start_clear (by simp [Clear]) path
  obtain ⟨found, settled, stack⟩ := settleNames_clear legible
    (settleLink_clear legible disk.linkDepth []) start ((hasNull_eq_false_iff path).mp clear)
  have plain : hasNull (pathOf (found.trail.location disk.cwd)) = false :=
    hasNull_eq_false (location_clear legible.cwd stack)
  have whole : disk.settle path = .ok found := settled
  unfold canonical Looping
  rw [whole]
  dsimp only
  rw [if_neg (by simp [plain])]
  constructor
  · rintro ⟨fault, refused⟩
    split at refused
    · rename_i loops
      exact ⟨found, rfl, loops⟩
    · cases refused
  · rintro ⟨other, same, loops⟩
    cases same
    exact ⟨_, by rw [loops]⟩

end Emplace.Disk
