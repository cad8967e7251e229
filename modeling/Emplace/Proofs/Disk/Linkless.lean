import Emplace.Proofs.Disk.Settling

/-!
Where paths settle once the disk has grown. Only links and the current directory have a say in it,
so a path settles on the same trail then, and one on which no circle of links is met, or that is
taken for a location below a root without links, is taken for the same location.
-/
namespace Emplace.Disk

variable {a b disk : Disk} {base : Location}

/-! ### Paths -/

theorem settleNames_grows (growth : Grows a b) (follow : Trail → Trail → String → Settled)
    (trail : Trail) (names : List String) :
    settleNames b follow trail names = settleNames a follow trail names := by
  induction names generalizing trail with
  | nil => rw [settleNames, settleNames]
  | cons name rest ih =>
      rw [settleNames, settleNames, growth.cwd]
      split
      · exact ih _
      · split
        · rfl
        · have becomes := growth.places ((trail.push name).location a.cwd)
          dsimp only
          generalize a.get? ((trail.push name).location a.cwd) = before at becomes
          generalize b.get? ((trail.push name).location a.cwd) = after at becomes
          -- What is new is no link, so the names go on from the same trail.
          cases becomes with
          | same => simp only [ih]
          | made => exact ih _
          | written => exact ih _
          | rewritten => exact ih _

theorem settleLink_grows (growth : Grows a b) (depth : Nat) (followed : List Trail) :
    settleLink b depth followed = settleLink a depth followed := by
  induction depth generalizing followed with
  | zero => rfl
  | succ depth ih =>
      funext dir here target
      rw [settleLink, settleLink, ih, settleNames_grows growth]

theorem links_perm (once : (a.entries.map (·.1)).Nodup) (growth : Grows a b) :
    b.links.Perm a.links := by
  refine (List.perm_ext_iff_of_nodup ((growth.once once).filter _) (once.filter _)).mpr fun loc => ?_
  rw [← links, ← links, mem_links_iff, mem_links_iff]
  exact exists_congr fun target => growth.link_iff loc target

/-- A path settles on the same trail once the disk has grown, also where it meets a circle. -/
theorem settle_grows (once : (a.entries.map (·.1)).Nodup) (growth : Grows a b) (path : Path) :
    b.settle path = a.settle path := by
  have deep : b.linkDepth = a.linkDepth := by
    rw [linkDepth, linkDepth, (links_perm once growth).length_eq, growth.cwd]
  rw [settle, settle, deep, settleLink_grows growth, settleNames_grows growth]

/-- A path on which no circle of links is met is taken for the same location, or refused in the same
way, once the disk has grown. -/
theorem canonical_grows (sound : Sound a) (growth : Grows a b) {path : Path}
    (straight : ¬ Circular a path) :
    b.canonical path = a.canonical path ∧ ¬ Circular b path := by
  have same := settle_grows sound.once growth path
  refine ⟨?_, ?_⟩
  · unfold canonical
    rw [same]
    cases settled : a.settle path with
    | error fault => rfl
    | ok found =>
        have plain := found.trail.location_ordinary sound.grounded.plain
        have bare : Bare a [] (found.trail.location a.cwd) := by
          apply (settle_fine sound.grounded settled).bare
          by_contra bent
          exact straight ⟨found, settled, by simpa using bent⟩
        -- The system meets no circle on the location either, before or after.
        have open_ := status_bare_ne_tooManyLinks bare plain
        have still := status_bare_ne_tooManyLinks (bare.grows growth) plain
        dsimp only
        rw [growth.cwd]
        unfold pathOf
        split
        · rfl
        · split
          · rename_i loops
            exact absurd loops still
          · rfl
  · rintro ⟨found, settled, bent⟩
    exact straight ⟨found, same ▸ settled, bent⟩

/-! ### Roots without links -/

/-- No link lies in the tree at a location. -/
def Linkless (disk : Disk) (base : Location) : Prop :=
  ∀ loc, base <+: loc → ∀ target, disk.get? loc ≠ some (.link target)

theorem linkless_iff (disk : Disk) (base : Location) : Linkless disk base ↔
    ∀ row ∈ disk.entries, base <+: row.1 →
      (disk.get? row.1).all fun entry => !(entry matches .link _) := by
  constructor
  · intro linkless row _ inside
    have free := linkless row.1 inside
    cases here : disk.get? row.1 with
    | none => rfl
    | some entry =>
        cases entry with
        | link target => exact absurd here (free target)
        | _ => rfl
  · intro rows loc inside target link
    have listed := rows _ (mem_of_get?_link link) inside
    simp [link] at listed

instance (disk : Disk) (base : Location) : Decidable (Linkless disk base) :=
  decidable_of_iff _ (linkless_iff disk base).symm

/-- A root that is taken for a bare location below which no link lies, there or not. -/
structure LinkFree (disk : Disk) (root : Path) (base : Location) : Prop where
  sound : Sound disk
  settled : disk.canonical root = .ok base
  straight : ¬ Circular disk root
  linkless : Linkless disk base

/-- A root that the system finds as a directory is such a root if no link lies in it. -/
theorem LinkFree.of_locate (sound : Sound disk) {root : Path}
    (found : disk.locate .target root = .ok (.present base .directory))
    (linkless : Linkless disk base) : LinkFree disk root base := by
  obtain ⟨_, left, enters⟩ := (locate_directory_iff root base).mp found
  obtain ⟨last, settled, _⟩ := settle_of_enters sound (.refl disk) enters
  refine ⟨sound, canonical_of_locate sound (.refl disk) found, ?_, linkless⟩
  rintro ⟨other, again, bent⟩
  rw [settled] at again
  cases again
  cases bent

theorem LinkFree.bare (free : LinkFree a root base) (growth : Grows a b) {loc : Location}
    (inside : base <+: loc) : Bare b [] loc := by
  have top := bare_of_canonical free.sound.grounded free.settled free.straight
  apply Bare.grows _ growth
  intro front upTo target
  rw [List.nil_append]
  rcases List.prefix_or_prefix_of_prefix upTo inside with above | below
  · exact top front above target
  · exact free.linkless front below target

theorem LinkFree.canonical_eq (free : LinkFree a root base) (growth : Grows a b) :
    b.canonical root = .ok base := by
  rw [(canonical_grows free.sound growth free.straight).1, free.settled]

/-- A path that is taken for a location below the root stays taken for it, even if it has met a circle
of links on its way. -/
theorem LinkFree.canonical_stays (free : LinkFree disk root base) (early : Grows disk a)
    (growth : Grows a b) {path : Path} {loc : Location} (settled : a.canonical path = .ok loc)
    (inside : base <+: loc) : b.canonical path = .ok loc := by
  have ordinary := canonical_ordinary (free.sound.grounded.grows early) settled
  obtain ⟨found, same, there, clear⟩ := canonical_eq_ok settled
  rw [← growth.cwd] at there
  rw [← settle_grows (early.once free.sound.once) growth] at same
  exact canonical_of_settle same there clear (free.bare (early.trans growth) inside) ordinary

end Emplace.Disk
