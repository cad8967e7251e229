import Emplace.Proofs.Disk.Making

/-!
Disks on which files that were there are written again. Their tables have the same locations in the
same order, so two of them are equal as soon as they hold the same at every location.
-/
namespace Emplace.Disk

/-- A disk that differs by the bytes of files alone. -/
structure Rewrites (before after : Disk) : Prop where
  grows : Grows before after
  keys : after.entries.map (·.1) = before.entries.map (·.1)
  /-- A table can have a row for the root, although nothing is looked up in it. -/
  root : lookup [] after.entries = lookup [] before.entries

variable {a b c disk : Disk} {path : Path} {loc : Location} {bytes : ByteArray} {mode : Bool}

theorem Rewrites.refl (disk : Disk) : Rewrites disk disk := ⟨.refl disk, rfl, rfl⟩

theorem Rewrites.trans (first : Rewrites a b) (second : Rewrites b c) : Rewrites a c :=
  ⟨first.grows.trans second.grows, second.keys.trans first.keys, second.root.trans first.root⟩

theorem rewrites_put (disk : Disk) {old : ByteArray} (below : loc ≠ [])
    (found : disk.get? loc = some (.file old mode)) (bytes : ByteArray) :
    Rewrites disk (disk.put loc (.file bytes mode)) := by
  have member : loc ∈ disk.entries.map (·.1) := by
    obtain ⟨front, name, rfl⟩ := (List.eq_nil_or_concat loc).resolve_left below
    rw [List.concat_eq_append] at found ⊢
    exact List.mem_map_of_mem (mem_of_get? found)
  refine ⟨grows_put_file disk below (Or.inr ⟨old, found⟩), ?_, ?_⟩
  · rw [put, keys_assign, if_pos member]
  · exact lookup_assign_other _ _ below.symm

/-- Tables with the same locations are equal where they hold the same. -/
theorem table_eq_of_lookup {first second : List (Location × Entry)}
    (keys : second.map (·.1) = first.map (·.1)) (once : (first.map (·.1)).Nodup)
    (same : ∀ loc, lookup loc second = lookup loc first) : second = first := by
  induction first generalizing second with
  | nil => exact List.map_eq_nil_iff.mp keys
  | cons row rest ih =>
      obtain ⟨_, entry⟩ := row
      cases second with
      | nil => cases keys
      | cons other more =>
          obtain ⟨key, value⟩ := other
          obtain ⟨rfl, tails⟩ := List.cons_eq_cons.mp keys
          obtain ⟨fresh, later⟩ := List.nodup_cons.mp once
          have here := same key
          simp only [lookup, if_true, Option.some.injEq] at here
          subst here
          congr 1
          apply ih tails later
          intro loc
          by_cases head : key = loc
          · -- The location of the first row is that of no other row, in either table.
            subst head
            have absent : ∀ table : List (Location × Entry), key ∉ table.map (·.1) →
                lookup key table = none := by
              intro table gone
              by_contra some
              obtain ⟨there, found⟩ := Option.ne_none_iff_exists'.mp some
              exact gone (List.mem_map_of_mem (mem_of_lookup found))
            rw [absent rest fresh, absent more (tails ▸ fresh)]
          · have beside := same loc
            rwa [lookup, if_neg head, lookup, if_neg head] at beside

/-- A disk on which the same bytes have come to all files is the same disk. -/
theorem Rewrites.eq (rewrites : Rewrites a b) (once : (a.entries.map (·.1)).Nodup)
    (same : ∀ loc, b.get? loc = a.get? loc) : b = a := by
  have tables : b.entries = a.entries := by
    apply table_eq_of_lookup rewrites.keys once
    intro loc
    cases loc with
    | nil => exact rewrites.root
    | cons name rest => exact same (name :: rest)
  obtain ⟨_, _⟩ := a
  obtain ⟨_, _⟩ := b
  exact congrArg₂ Disk.mk rewrites.grows.cwd tables

/-- A path that was opened for writing leads to the file that has come to its place. -/
theorem locate_writing_again {name : String} {spot : Spot} (ordinary : Ordinary name)
    (opened : a.locate .writing (path.entry name) = .ok spot) (growth : Grows a b)
    (parent : a.locate .target path = .ok (.present loc .directory))
    (there : b.get? (loc ++ [name]) = some (.file bytes mode)) :
    b.locate .writing (path.entry name) = .ok (.present (loc ++ [name]) (.file bytes mode)) := by
  obtain ⟨left, _, entries⟩ := locate_entry parent
  have before := entries a (.refl a) .writing name fun _ => ordinary.1
  rw [entries b growth .writing name fun _ => ordinary.1]
  rw [opened] at before
  split at before
  · cases before
  · rename_i short
    rw [chase_ordinary ordinary] at before
    rw [if_neg short, chase_ordinary ordinary, there]
    split at before
    · cases before
    · rename_i narrow
      rw [if_neg narrow]
      simp

/-- What was written at a bare place can be written there again, over any other bytes. -/
theorem writeBytes_again {target : Location} {next : Disk} (bare : Bare a [] target)
    (ordinary : ∀ name ∈ target, Ordinary name)
    (stored : a.writeBytes ⟨.root, target⟩ bytes = .ok next) (growth : Grows next b) :
    ∃ mode old, target ≠ [] ∧ next = a.put target (.file bytes mode) ∧
      b.get? target = some (.file old mode) ∧
      b.writeBytes ⟨.root, target⟩ bytes = .ok (b.put target (.file bytes mode)) := by
  have grown : Grows a b := (writeBytes_grows stored).trans growth
  obtain ⟨_, clear⟩ := answer_eq_ok stored
  obtain ⟨spot, mode, opened, rfl, below, _⟩ := writeBytes_eq_ok stored
  rw [place_of_locate_bare bare ordinary opened] at below growth ⊢
  obtain ⟨old, there⟩ : ∃ old, b.get? target = some (.file old mode) := by
    have becomes := growth.places target
    rw [get?_put_same a _ below] at becomes
    generalize b.get? target = place at becomes
    cases becomes with
    | same => exact ⟨bytes, rfl⟩
    | rewritten _ new => exact ⟨new, rfl⟩
  refine ⟨mode, old, below, rfl, there, ?_⟩
  -- The directory of the file is found at its own names as well.
  obtain ⟨front, name, rfl⟩ := (List.eq_nil_or_concat target).resolve_left below
  rw [List.concat_eq_append] at *
  obtain ⟨loc, parent⟩ := @locate_parent a ⟨.root, front⟩ _ name spot
    (ordinary name (by simp)).1 opened
  have here : loc = front := place_of_locate_bare (bare.of_prefix (List.prefix_append _ _))
    (fun other member => ordinary other (List.mem_append_left _ member)) parent
  subst here
  have again := locate_writing_again (ordinary name (by simp)) opened grown parent there
  rw [Path.entry] at again
  simp [writeBytes, again, answer, clear]

end Emplace.Disk
