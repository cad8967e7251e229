import Emplace.Disk.Canonical
import Emplace.Proofs.Disk.Bare
import Emplace.Proofs.Path
import Emplace.Proofs.Path.Absolute
import Mathlib.Data.List.Perm.Subperm
import Mathlib.Tactic.ByContra

/-!
Working a path out to a location. A path that meets no circle of links settles on a bare location;
one that does settles on what its text says, and nothing is known of the links on that. A path that
the system can enter is settled, without a circle, on the directory that the system finds.
-/
namespace Emplace.Disk

/-! ### Trails -/

/-- A trail has `..` only at its beginning, and there only from the current directory. -/
def Trail.Clean (trail : Trail) : Prop :=
  ∀ piece ∈ trail.stack, piece ≠ "" ∧ piece ≠ "." ∧ (trail.anchored = true → piece ≠ "..")

/-- A current directory without dot names. -/
def Plain (cwd : Location) : Prop := ∀ name ∈ cwd, Ordinary name

/-- The current directory is reached by its own names alone. -/
structure Grounded (disk : Disk) : Prop where
  plain : Plain disk.cwd
  bare : Bare disk [] disk.cwd

theorem Sound.grounded {disk : Disk} (sound : Sound disk) : Grounded disk :=
  ⟨fun name member => (sound.nameable sound.cwd name member).1, bare_of_directory sound sound.cwd⟩

theorem Grounded.grows {a b : Disk} (grounded : Grounded a) (growth : Grows a b) : Grounded b := by
  refine ⟨?_, ?_⟩
  · rw [growth.cwd]
    exact grounded.plain
  · rw [growth.cwd]
    exact grounded.bare.grows growth

namespace Trail

/-- The names of the location of a trail, last name first. -/
def names (cwd : Location) (trail : Trail) : List String :=
  trail.stack.foldr (fun name stack => Path.pushPiece true stack name)
    (if trail.anchored then [] else cwd.reverse)

variable {cwd : Location} {trail : Trail}

theorem location_eq (cwd : Location) (trail : Trail) :
    trail.location cwd = (trail.names cwd).reverse := rfl

theorem names_cons (cwd : Location) (anchored : Bool) (piece : String) (below : List String) :
    names cwd ⟨anchored, piece :: below⟩ =
      Path.pushPiece true (names cwd ⟨anchored, below⟩) piece := rfl

theorem names_ordinary (plain : Plain cwd) (trail : Trail) :
    ∀ name ∈ trail.names cwd, Ordinary name := by
  obtain ⟨anchored, stack⟩ := trail
  induction stack with
  | nil =>
      cases anchored with
      | true => simp [names]
      | false =>
          intro name member
          exact plain name (List.mem_reverse.mp member)
  | cons piece below ih => exact Path.pushPiece_anchored_ordinary _ piece ih

theorem location_ordinary (plain : Plain cwd) (trail : Trail) :
    ∀ name ∈ trail.location cwd, Ordinary name := by
  intro name member
  rw [location_eq, List.mem_reverse] at member
  exact names_ordinary plain trail name member

theorem Clean.push (clean : Clean trail) (piece : String) : Clean (trail.push piece) := by
  obtain ⟨anchored, stack⟩ := trail
  simp only [Trail.push, Path.pushPiece]
  split
  · exact clean
  · rename_i busy
    have notIdle : piece ≠ "" ∧ piece ≠ "." := not_or.mp busy
    split
    · rename_i up
      subst up
      cases stack with
      | nil => cases anchored <;> simp [Clean]
      | cons top below =>
          by_cases topUp : top = ".."
          · simp only [topUp, if_true]
            intro other member
            rcases List.mem_cons.mp member with rfl | old
            · have first := clean top List.mem_cons_self
              exact ⟨notIdle.1, notIdle.2, fun set => absurd topUp (first.2.2 set)⟩
            · exact clean other (by simpa [topUp] using old)
          · simp only [topUp, if_false]
            exact fun other member => clean other (List.mem_cons_of_mem _ member)
    · rename_i notUp
      intro other member
      rcases List.mem_cons.mp member with rfl | old
      · exact ⟨notIdle.1, notIdle.2, fun _ => notUp⟩
      · exact clean other old

theorem names_push (plain : Plain cwd) (clean : Clean trail) (piece : String) :
    (trail.push piece).names cwd =
      if piece = "" ∨ piece = "." then trail.names cwd
      else if piece = ".." then (trail.names cwd).tail else piece :: trail.names cwd := by
  obtain ⟨anchored, stack⟩ := trail
  by_cases idle : piece = "" ∨ piece = "."
  · simp [Trail.push, Path.pushPiece, idle]
  · by_cases up : piece = ".."
    · subst up
      have shorter : ∀ stack : List String, (∀ name ∈ stack, Ordinary name) →
          Path.pushPiece true stack ".." = stack.tail := fun stack ordinary => by
        rw [Path.pushPiece_anchored stack ".." ordinary]
        simp
      rw [if_neg idle, if_pos rfl]
      cases stack with
      | nil =>
          cases anchored with
          | true => simp [Trail.push, Path.pushPiece, names]
          | false =>
              have step := shorter cwd.reverse fun name member =>
                plain name (List.mem_reverse.mp member)
              simpa [Trail.push, Path.pushPiece, names] using step
      | cons top below =>
          by_cases topUp : top = ".."
          · have step := shorter _ (names_ordinary plain ⟨anchored, ".." :: below⟩)
            simpa [Trail.push, Path.pushPiece, names, topUp] using step
          · have first := clean top List.mem_cons_self
            have whole : Trail.names cwd ⟨anchored, top :: below⟩ =
                top :: Trail.names cwd ⟨anchored, below⟩ := by
              rw [names_cons,
                Path.pushPiece_anchored _ top (names_ordinary plain ⟨anchored, below⟩),
                if_neg (by simp [first.1, first.2.1]), if_neg topUp]
            rw [whole]
            simp [Trail.push, Path.pushPiece, topUp]
    · have pushed : Trail.push ⟨anchored, stack⟩ piece = ⟨anchored, piece :: stack⟩ := by
        simp [Trail.push, Path.pushPiece, idle, up]
      rw [pushed, names_cons,
        Path.pushPiece_anchored _ piece (names_ordinary plain ⟨anchored, stack⟩)]

theorem location_push_idle {piece : String} (idle : piece = "" ∨ piece = ".") :
    (trail.push piece).location cwd = trail.location cwd := by
  simp [Trail.push, Path.pushPiece, idle]

theorem location_push_up (plain : Plain cwd) (clean : Clean trail) :
    (trail.push "..").location cwd = (trail.location cwd).dropLast := by
  rw [location_eq, location_eq, names_push plain clean, if_neg (by simp), if_pos rfl]
  simp

theorem location_push_name (plain : Plain cwd) (clean : Clean trail) {piece : String}
    (ordinary : Ordinary piece) :
    (trail.push piece).location cwd = trail.location cwd ++ [piece] := by
  rw [location_eq, location_eq, names_push plain clean,
    if_neg (by simp [ordinary.1, ordinary.2.1]), if_neg ordinary.2.2]
  simp

theorem Clean.start (clean : Clean trail) (path : Path) : Clean (trail.start path) := by
  unfold Trail.start
  split
  · exact clean
  · simp [Clean]

theorem location_start (trail : Trail) (path : Path) :
    (trail.start path).location cwd = startOf (trail.location cwd) path := by
  unfold Trail.start startOf
  cases path.anchor <;> rfl

theorem Clean.foldl_push (clean : Clean trail) (pieces : List String) :
    Clean (pieces.foldl Trail.push trail) := by
  induction pieces generalizing trail with
  | nil => exact clean
  | cons piece rest ih => exact ih (clean.push piece)

theorem Clean.finish (clean : Clean trail) (pieces : List String) :
    Clean (trail.finish pieces) := by
  have top : Clean ⟨true, []⟩ := by simp [Clean]
  unfold Trail.finish
  split
  · exact top.foldl_push _
  · exact clean.foldl_push _

end Trail

/-! ### Where a path settles -/

variable {disk : Disk}

/-- A settled trail holds no dot names but at its beginning, and where no circle was met no link
stands on its location. -/
structure Settled.Fine (disk : Disk) (found : Settled) : Prop where
  clean : found.trail.Clean
  bare : found.straight = true → Bare disk [] (found.trail.location disk.cwd)

theorem Bare.push (plain : Plain disk.cwd) {trail : Trail} (clean : trail.Clean)
    (bare : Bare disk [] (trail.location disk.cwd)) {piece : String}
    (free : Ordinary piece → ∀ target, disk.get? ((trail.push piece).location disk.cwd) ≠
      some (.link target)) :
    Bare disk [] ((trail.push piece).location disk.cwd) := by
  by_cases idle : piece = "" ∨ piece = "."
  · rwa [Trail.location_push_idle idle]
  · by_cases up : piece = ".."
    · subst up
      rw [Trail.location_push_up plain clean]
      exact bare.of_prefix (List.dropLast_prefix _)
    · have ordinary : Ordinary piece :=
        ⟨fun empty => idle (Or.inl empty), fun dot => idle (Or.inr dot), up⟩
      have place := Trail.location_push_name plain clean ordinary
      rw [place] at free ⊢
      intro front upTo target
      rcases List.prefix_concat_iff.mp upTo with rfl | shorter
      · simpa using free ordinary target
      · exact bare front shorter target

theorem settleNames_fine (plain : Plain disk.cwd) {follow : Trail → Trail → String → Settled}
    (fine : ∀ dir here target, dir.Clean → here.Clean → Bare disk [] (dir.location disk.cwd) →
      (follow dir here target).Fine disk)
    (names : List String) {trail : Trail} (clean : trail.Clean)
    (bare : Bare disk [] (trail.location disk.cwd)) {found : Settled}
    (settled : settleNames disk follow trail names = .ok found) : found.Fine disk := by
  induction names generalizing trail with
  | nil =>
      rw [settleNames] at settled
      cases settled
      exact ⟨clean, fun _ => bare⟩
  | cons name rest ih =>
      rw [settleNames] at settled
      split at settled
      · rename_i special
        apply ih (clean.push name) _ settled
        apply bare.push plain clean
        intro ordinary
        simp [ordinary.1, ordinary.2.1, ordinary.2.2] at special
      · split at settled
        · cases settled
        · dsimp only at settled
          split at settled
          · rename_i target here
            have followed := fine trail (trail.push name) target clean (clean.push name) bare
            split at settled
            · rename_i straight
              exact ih followed.clean (followed.bare straight) settled
            · -- Behind a circle the rest is worked out by its text, and links on it stay unseen.
              cases settled
              exact ⟨followed.clean.finish rest, fun impossible => by cases impossible⟩
          · rename_i notLink
            apply ih (clean.push name) _ settled
            exact bare.push plain clean fun _ target => notLink target

theorem settleLink_fine (plain : Plain disk.cwd) (depth : Nat) (followed : List Trail)
    (dir here : Trail) (target : String) (cleanDir : dir.Clean) (cleanHere : here.Clean)
    (bare : Bare disk [] (dir.location disk.cwd)) :
    (settleLink disk depth followed dir here target).Fine disk := by
  induction depth generalizing followed dir here target with
  | zero => exact ⟨cleanHere, fun impossible => by cases impossible⟩
  | succ depth ih =>
      rw [settleLink]
      split
      · exact ⟨cleanHere, fun impossible => by cases impossible⟩
      · split
        · rename_i found settled
          refine settleNames_fine plain (fun dir here target => ih _ dir here target) _
            (cleanDir.start _) ?_ settled
          rw [Trail.location_start]
          unfold startOf
          split
          · exact bare
          · simp [Bare, get?]
        · exact ⟨cleanHere, fun impossible => by cases impossible⟩

theorem settle_fine (grounded : Grounded disk) {path : Path} {found : Settled}
    (settled : disk.settle path = .ok found) : found.Fine disk := by
  have clean : Trail.Clean ⟨false, []⟩ := by simp [Trail.Clean]
  refine settleNames_fine grounded.plain
    (fun dir here target => settleLink_fine grounded.plain _ _ _ _ _) _ (clean.start path) ?_
    settled
  rw [Trail.location_start]
  unfold startOf
  split
  · simpa [Trail.location] using grounded.bare
  · simp [Bare, get?]

/-- A path on which a circle of links is met. -/
def Circular (disk : Disk) (path : Path) : Prop :=
  ∃ found, disk.settle path = .ok found ∧ found.straight = false

instance (disk : Disk) (path : Path) : Decidable (Circular disk path) :=
  match same : disk.settle path with
  | .ok found => decidable_of_iff (found.straight = false) (by simp [Circular, same])
  | .error _ => .isFalse (by simp [Circular, same])

theorem canonical_eq_ok {path : Path} {loc : Location} (settled : disk.canonical path = .ok loc) :
    ∃ found, disk.settle path = .ok found ∧ found.trail.location disk.cwd = loc ∧
      hasNull (pathOf loc) = false := by
  unfold canonical at settled
  split at settled
  · cases settled
  · rename_i found same
    dsimp only at settled
    split at settled
    · cases settled
    · rename_i clear
      split at settled
      · cases settled
      · cases settled
        exact ⟨found, same, rfl, (Bool.not_eq_true _).mp clear⟩

theorem canonical_ordinary (grounded : Grounded disk) {path : Path} {loc : Location}
    (settled : disk.canonical path = .ok loc) : ∀ name ∈ loc, Ordinary name := by
  obtain ⟨found, _, rfl, _⟩ := canonical_eq_ok settled
  exact found.trail.location_ordinary grounded.plain

/-- Where a path meets no circle of links, no link stands on the location that it is taken for. -/
theorem bare_of_canonical (grounded : Grounded disk) {path : Path} {loc : Location}
    (settled : disk.canonical path = .ok loc) (straight : ¬ Circular disk path) :
    Bare disk [] loc := by
  obtain ⟨found, same, rfl, _⟩ := canonical_eq_ok settled
  apply (settle_fine grounded same).bare
  by_contra bent
  exact straight ⟨found, same, by simpa using bent⟩

/-! ### Paths that the system can enter -/

/-- The links that are followed on the way of the target of a link. -/
def LinkCost (disk : Disk) (loc : Location) (cost : Nat) : Prop :=
  ∃ target links left out, disk.get? loc = some (.link target) ∧ links = left + cost ∧
    Enters disk links (startOf loc.dropLast (Path.raw target)) (Path.raw target).names left out

theorem LinkCost.unique {loc : Location} {a b : Nat} (first : LinkCost disk loc a)
    (second : LinkCost disk loc b) : a = b := by
  obtain ⟨target, links, left, out, here, same, enters⟩ := first
  obtain ⟨other, more, less, there, again, equal, also⟩ := second
  rw [here] at again
  cases again
  have cost := (enters.same_cost also).1
  omega

theorem raw_names_filter (target : String) :
    (Path.raw target).names.filter (· ≠ "") = (Text.split '/' target).filter (· ≠ "") := by
  have once : ∀ names : List String, (names.filter (· != "")).filter (· ≠ "") =
      names.filter (· ≠ "") := by
    intro names
    rw [List.filter_filter]
    apply List.filter_congr
    intro name _
    by_cases empty : name = "" <;> simp [empty]
  unfold Path.raw
  dsimp only
  split
  · rw [List.filter_append, once]
    simp
  · exact once _

/-- The way on from a link is cut where its target ends: each part takes no more links than the
whole, and the first one as many as the link costs. -/
theorem Enters.cut {links left : Nat} {dir out : Location} {name target : String}
    {rest : List String} (found : disk.get? (dir ++ [name]) = some (.link target))
    (enters : Enters disk links (startOf dir (Path.raw target)) ((Path.raw target).names ++ rest)
      left out) :
    ∃ middle between, left ≤ middle ∧ middle ≤ links ∧
      LinkCost disk (dir ++ [name]) (links - middle) ∧
      Enters disk links (startOf dir (Path.raw target)) (Text.split '/' target) middle between ∧
      Enters disk middle between rest left out := by
  obtain ⟨middle, between, first, second⟩ := enters.split
  have firstLe := first.left_le
  refine ⟨middle, between, second.left_le, firstLe, ?cost, ?pieces, second⟩
  case cost =>
    refine ⟨target, links, middle, between, found, by omega, ?_⟩
    rwa [List.dropLast_concat]
  case pieces =>
    rw [← enters_filter_iff, ← raw_names_filter, enters_filter_iff]
    exact first

theorem settleNames_cons (follow : Trail → Trail → String → Settled) (trail : Trail)
    (name : String) (rest : List String) (ordinary : Ordinary name) (clear : '\x00' ∉ name.toList) :
    settleNames disk follow trail (name :: rest) =
      match disk.get? ((trail.push name).location disk.cwd) with
      | some (.link target) =>
        let found := follow trail (trail.push name) target
        if found.straight then settleNames disk follow found.trail rest
        else .ok ⟨found.trail.finish rest, false⟩
      | _ => settleNames disk follow (trail.push name) rest := by
  have busy : ¬ ["", ".", ".."].contains name := by
    simp [ordinary.1, ordinary.2.1, ordinary.2.2]
  have plain : ¬ name.toList.contains '\x00' := by simpa using clear
  rw [settleNames]
  exact (if_neg busy).trans (if_neg plain)

theorem settleNames_special (follow : Trail → Trail → String → Settled) (trail : Trail)
    {name : String} (rest : List String) (special : name = "." ∨ name = "" ∨ name = "..") :
    settleNames disk follow trail (name :: rest) =
      settleNames disk follow (trail.push name) rest := by
  have listed : ["", ".", ".."].contains name := by
    rcases special with rfl | rfl | rfl <;> decide
  rw [settleNames, if_pos listed]

theorem settleNames_directory (follow : Trail → Trail → String → Settled) (trail : Trail)
    {name : String} (rest : List String) (ordinary : Ordinary name) (clear : '\x00' ∉ name.toList)
    (there : disk.get? ((trail.push name).location disk.cwd) = some .directory) :
    settleNames disk follow trail (name :: rest) =
      settleNames disk follow (trail.push name) rest := by
  rw [settleNames_cons _ _ _ _ ordinary clear, there]

/-- Behind a link that leads on without a circle, names are settled where it leads. -/
theorem settleNames_link {follow : Trail → Trail → String → Settled} {trail turn : Trail}
    {name target : String} (rest : List String) (ordinary : Ordinary name)
    (clear : '\x00' ∉ name.toList)
    (there : disk.get? ((trail.push name).location disk.cwd) = some (.link target))
    (leads : follow trail (trail.push name) target = ⟨turn, true⟩) :
    settleNames disk follow trail (name :: rest) = settleNames disk follow turn rest := by
  rw [settleNames_cons _ _ _ _ ordinary clear, there]
  simp only [leads, if_true]

theorem mem_links_iff (disk : Disk) (loc : Location) :
    loc ∈ disk.links ↔ ∃ target, disk.get? loc = some (.link target) := by
  rw [links, List.mem_filter]
  constructor
  · rintro ⟨-, link⟩
    split at link
    · rename_i target found
      exact ⟨target, found⟩
    · cases link
  · rintro ⟨target, found⟩
    exact ⟨List.mem_map_of_mem (mem_of_get?_link found), by simp [found]⟩

/-- The links that are being followed while names are settled: each leads on over more links than
the names do, so none of them comes again, and there are more steps left than other links. -/
structure Pending (a b : Disk) (followed : List Trail) (depth cost : Nat) : Prop where
  dearer : ∀ trail ∈ followed, ∃ more, LinkCost a (trail.location b.cwd) more ∧ cost ≤ more
  apart : (followed.map (·.location b.cwd)).Nodup
  room : b.links.length + 1 ≤ depth + followed.length

variable {a b : Disk} {followed : List Trail} {depth below cost less : Nat}

theorem Pending.cheaper (pending : Pending a b followed depth cost) (smaller : less ≤ cost) :
    Pending a b followed depth less := by
  refine ⟨fun trail member => ?_, pending.apart, pending.room⟩
  obtain ⟨more, known, below⟩ := pending.dearer trail member
  exact ⟨more, known, Nat.le_trans smaller below⟩

theorem Pending.fresh (pending : Pending a b followed depth cost) {here : Trail}
    (known : LinkCost a (here.location b.cwd) less) (smaller : less < cost) :
    here.location b.cwd ∉ followed.map (·.location b.cwd) := by
  intro member
  obtain ⟨trail, earlier, same⟩ := List.mem_map.mp member
  obtain ⟨more, dear, below⟩ := pending.dearer trail earlier
  rw [same] at dear
  have equal := known.unique dear
  omega

theorem Pending.next (growth : Grows a b) (pending : Pending a b followed depth cost)
    {here : Trail} (known : LinkCost a (here.location b.cwd) less) (smaller : less < cost) :
    ∃ below, depth = below + 1 ∧ Pending a b (here :: followed) below less := by
  have apart : ((here :: followed).map (·.location b.cwd)).Nodup :=
    List.nodup_cons.mpr ⟨pending.fresh known smaller, pending.apart⟩
  have dearer : ∀ trail ∈ here :: followed,
      ∃ more, LinkCost a (trail.location b.cwd) more ∧ less ≤ more := by
    intro trail member
    rcases List.mem_cons.mp member with rfl | earlier
    · exact ⟨less, known, Nat.le_refl _⟩
    · exact (pending.cheaper (Nat.le_of_lt smaller)).dearer trail earlier
  -- Each of the locations is that of a link, so there are no more of them than links.
  have all : (here :: followed).map (·.location b.cwd) ⊆ b.links := by
    intro loc member
    obtain ⟨trail, listed, rfl⟩ := List.mem_map.mp member
    obtain ⟨more, ⟨target, _, _, _, link, _⟩, _⟩ := dearer trail listed
    exact (mem_links_iff b _).mpr ⟨target, (growth.link_iff _ _).mpr link⟩
  have few := (apart.subperm all).length_le
  have room := pending.room
  simp only [List.length_map, List.length_cons] at few
  refine ⟨depth - 1, by omega, dearer, apart, ?_⟩
  simp only [List.length_cons]
  omega

/-- A link that none of the pending ones is settles where the names of its target do. -/
theorem Pending.settleLink (pending : Pending a b followed depth cost) {here dir : Trail}
    {target : String} {found : Settled} (known : LinkCost a (here.location b.cwd) less)
    (smaller : less < cost)
    (settled : settleNames b (settleLink b below (here :: followed)) (dir.start (Path.raw target))
      (Text.split '/' target) = .ok found) :
    settleLink b (below + 1) followed dir here target = found := by
  have new : ¬ followed.contains here := by
    intro again
    have member : here ∈ followed := by simpa using again
    exact pending.fresh known smaller (List.mem_map_of_mem member)
  rw [Disk.settleLink, if_neg new, settled]

/-- Names that are entered settle, without a circle, on the directory that they lead to. -/
theorem settleNames_of_enters (sound : Sound a) (growth : Grows a b) (cost : Nat)
    {depth : Nat} {followed : List Trail} {trail : Trail} {names : List String} {links left : Nat}
    {out : Location} (clean : trail.Clean)
    (enters : Enters a links (trail.location b.cwd) names left out) (paid : links = left + cost)
    (pending : Pending a b followed depth cost) :
    ∃ last : Trail, settleNames b (settleLink b depth followed) trail names = .ok ⟨last, true⟩ ∧
      last.Clean ∧ last.location b.cwd = out := by
  have plain : Plain b.cwd := (sound.grounded.grows growth).plain
  -- Following a link takes at least one link less; the names before it follow the way itself.
  induction cost using Nat.strongRecOn generalizing depth followed trail names links left
      out with
  | _ cost shorter =>
  generalize from_ : trail.location b.cwd = dir at enters
  induction enters generalizing trail with
  | here links dir =>
      exact ⟨trail, by rw [settleNames], clean, from_⟩
  | @idle links left dir out name rest pass enters ih =>
      rw [settleNames_special _ _ _ (by tauto)]
      apply ih (clean.push name) paid
      rw [Trail.location_push_idle pass.symm, from_]
  | @up links left dir out rest enters ih =>
      rw [settleNames_special _ _ _ (by simp)]
      apply ih (clean.push "..") paid
      rw [Trail.location_push_up plain clean, from_]
  | @enter links left dir out name rest ordinary short found enters ih =>
      have place : (trail.push name).location b.cwd = dir ++ [name] := by
        rw [Trail.location_push_name plain clean ordinary, from_]
      have there := growth.directory found
      rw [← place] at there
      rw [settleNames_directory _ _ _ ordinary (sound.parent found).1.2.2 there]
      exact ih (clean.push name) paid place
  | @follow links left dir out name target rest ordinary short found enters ih =>
      have place : (trail.push name).location b.cwd = dir ++ [name] := by
        rw [Trail.location_push_name plain clean ordinary, from_]
      have there := (growth.link_iff _ _).mpr found
      obtain ⟨middle, between, behind, within, known, first, second⟩ := enters.cut found
      rw [← place] at there known
      obtain ⟨below, rfl, next⟩ := pending.next growth known (by omega)
      rw [← from_, ← Trail.location_start] at first
      obtain ⟨turn, turned, turnGood, turnAt⟩ := shorter (links - middle) (by omega)
        (clean.start (Path.raw target)) first (by omega) next
      have leads := pending.settleLink known (by omega) turned
      rw [settleNames_link rest ordinary (sound.parent found).1.2.2 there leads]
      exact shorter (middle - left) (by omega) turnGood (by rwa [turnAt]) (by omega)
        (pending.cheaper (by omega))

theorem settle_of_enters (sound : Sound a) (growth : Grows a b) {path : Path} {links left : Nat}
    {out : Location} (enters : Enters a links (startOf a.cwd path) path.names left out) :
    ∃ last : Trail, b.settle path = .ok ⟨last, true⟩ ∧ last.Clean ∧ last.location b.cwd = out := by
  have clean : Trail.Clean ⟨false, []⟩ := by simp [Trail.Clean]
  have start : (Trail.start ⟨false, []⟩ path).location b.cwd = startOf a.cwd path := by
    rw [Trail.location_start, ← growth.cwd]
    simp [Trail.location]
  have room : b.links.length + 1 ≤ b.linkDepth := Nat.le_mul_of_pos_right _ (by omega)
  exact settleNames_of_enters sound growth (links - left) (clean.start path)
    (by rw [start]; exact enters) (by have := enters.left_le; omega)
    ⟨by simp, by simp, by simpa using room⟩

theorem hasNull_eq_false_of_get? (sound : Sound a) {loc : Location} {entry : Entry}
    (found : a.get? loc = some entry) : hasNull (pathOf loc) = false :=
  hasNull_eq_false fun name member => (sound.nameable found name member).2.2

/-- A path that settles on a location on whose way no link stands is taken for it. -/
theorem canonical_of_settle {path : Path} {found : Settled} {loc : Location}
    (settled : b.settle path = .ok found) (there : found.trail.location b.cwd = loc)
    (clear : hasNull (pathOf loc) = false) (bare : Bare b [] loc)
    (ordinary : ∀ name ∈ loc, Ordinary name) : b.canonical path = .ok loc := by
  have open_ := status_bare_ne_tooManyLinks bare ordinary
  unfold canonical
  rw [settled]
  dsimp only
  rw [there, if_neg (by simp [clear])]
  split
  · rename_i loops
    exact absurd loops open_
  · rfl

/-- A directory that the system finds is the location that its path is taken for, also after the
disk has grown. -/
theorem canonical_of_locate (sound : Sound a) (growth : Grows a b) {path : Path} {loc : Location}
    (found : a.locate .target path = .ok (.present loc .directory)) :
    b.canonical path = .ok loc := by
  obtain ⟨_, left, enters⟩ := (locate_directory_iff path loc).mp found
  obtain ⟨last, settled, _, there⟩ := settle_of_enters sound growth enters
  have directory := directory_of_locate sound found
  have plain := (sound.grounded.grows growth).plain
  exact canonical_of_settle settled there (hasNull_eq_false_of_get? sound directory)
    ((bare_of_directory sound directory).grows growth)
    (there ▸ last.location_ordinary plain)

/-! ### Paths on which no link is left -/

theorem settleNames_append {follow : Trail → Trail → String → Settled} {trail middle : Trail}
    {names : List String} (settled : settleNames disk follow trail names = .ok ⟨middle, true⟩)
    (more : List String) :
    settleNames disk follow trail (names ++ more) = settleNames disk follow middle more := by
  induction names generalizing trail with
  | nil =>
      rw [settleNames] at settled
      cases settled
      rfl
  | cons name rest ih =>
      rw [settleNames] at settled
      rw [List.cons_append, settleNames]
      split at settled
      · rename_i special
        rw [if_pos special]
        exact ih settled
      · rename_i busy
        rw [if_neg busy]
        split at settled
        · cases settled
        · rename_i clear
          rw [if_neg clear]
          dsimp only at settled ⊢
          cases here : disk.get? ((trail.push name).location disk.cwd) with
          | none =>
              rw [here] at settled
              exact ih settled
          | some entry =>
              rw [here] at settled
              cases entry with
              | link target =>
                  cases straight : (follow trail (trail.push name) target).straight with
                  | true =>
                      simp only [straight, if_true] at settled ⊢
                      exact ih settled
                  | false => simp [straight] at settled
              | directory => exact ih settled
              | file => exact ih settled
              | pipe => exact ih settled

/-- Ordinary names without links on them settle on themselves. -/
theorem settleNames_bare {follow : Trail → Trail → String → Settled} (plain : Plain disk.cwd)
    {trail : Trail} (clean : trail.Clean) {names : List String} {found : Settled}
    (ordinary : ∀ name ∈ names, Ordinary name)
    (bare : Bare disk (trail.location disk.cwd) names)
    (settled : settleNames disk follow trail names = .ok found) :
    found.trail.location disk.cwd = trail.location disk.cwd ++ names := by
  induction names generalizing trail with
  | nil =>
      rw [settleNames] at settled
      cases settled
      simp
  | cons name rest ih =>
      have good := ordinary name List.mem_cons_self
      have place := Trail.location_push_name plain clean good
      by_cases clear : '\x00' ∉ name.toList
      · rw [settleNames_cons _ _ _ _ good clear, place] at settled
        have onward : settleNames disk follow (trail.push name) rest = .ok found := by
          split at settled
          · rename_i target link
            exact absurd link (bare [name] (by simp) target)
          · exact settled
        have later := ih (clean.push name)
          (fun other member => ordinary other (List.mem_cons_of_mem _ member))
          (by rw [place]; exact bare.tail) onward
        rw [later, place]
        simp
      · rw [settleNames, if_neg (by simp [good.1, good.2.1, good.2.2]),
          if_pos (by simpa using clear)] at settled
        cases settled

/-- A path that goes on from a directory without links is taken for what it says. -/
theorem canonical_below (sound : Sound a) (growth : Grows a b) {path : Path} {top loc : Location}
    {names : List String} (located : a.locate .target path = .ok (.present top .directory))
    (ordinary : ∀ name ∈ names, Ordinary name) (bare : Bare b top names)
    (settled : b.canonical (path.join ⟨.here, names⟩) = .ok loc) : loc = top ++ names := by
  obtain ⟨_, left, enters⟩ := (locate_directory_iff path top).mp located
  obtain ⟨last, first, clean, there⟩ := settle_of_enters sound growth enters
  obtain ⟨found, whole, rfl, _⟩ := canonical_eq_ok settled
  have start : b.settle (path.join ⟨.here, names⟩) =
      settleNames b (settleLink b b.linkDepth []) (Trail.start ⟨false, []⟩ path)
        (path.names ++ names) := rfl
  rw [start, settleNames_append first] at whole
  have plain := (sound.grounded.grows growth).plain
  rw [settleNames_bare plain clean ordinary (there ▸ bare) whole, there]

end Emplace.Disk
