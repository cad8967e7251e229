import Emplace.Proofs.Disk.Calls

/-!
The places that the system looks at while it follows names. Two disks that agree on them give the
same answer, so what changes elsewhere is not seen through a path.
-/
namespace Emplace.Disk

variable {disk a b : Disk} {aim : Aim} {links : Nat} {dir : Location} {names : List String}

/-- A place that is looked at when names are followed from a directory over so many links. -/
inductive Looks (disk : Disk) : Nat → Location → List String → Location → Prop where
  | here {links : Nat} {dir : Location} {name : String} {rest : List String} :
      Ordinary name → name.utf8ByteSize ≤ nameLimit →
      Looks disk links dir (name :: rest) (dir ++ [name])
  | idle {links : Nat} {dir place : Location} {name : String} {rest : List String} :
      name = "." ∨ name = "" → Looks disk links dir rest place →
      Looks disk links dir (name :: rest) place
  | up {links : Nat} {dir place : Location} {rest : List String} :
      Looks disk links dir.dropLast rest place → Looks disk links dir (".." :: rest) place
  | enter {links : Nat} {dir place : Location} {name : String} {rest : List String} :
      Ordinary name → name.utf8ByteSize ≤ nameLimit →
      disk.get? (dir ++ [name]) = some .directory → Looks disk links (dir ++ [name]) rest place →
      Looks disk links dir (name :: rest) place
  | follow {links : Nat} {dir place : Location} {name target : String} {rest : List String} :
      Ordinary name → name.utf8ByteSize ≤ nameLimit →
      disk.get? (dir ++ [name]) = some (.link target) →
      Looks disk links (startOf dir (Path.raw target)) ((Path.raw target).names ++ rest) place →
      Looks disk (links + 1) dir (name :: rest) place

/-- Following a link comes to something in the tree at `base` other than a directory. -/
def LeadsInto (disk : Disk) (base dir : Location) (target : String) : Prop :=
  ∃ place, Looks disk linkLimit (startOf dir (Path.raw target)) (Path.raw target).names place ∧
    base <+: place ∧ disk.get? place ≠ some .directory

theorem Looks.more {place : Location} (looks : Looks disk links dir names place) (extra : Nat) :
    Looks disk (links + extra) dir names place := by
  induction looks with
  | here ordinary short => exact .here ordinary short
  | idle pass _ ih => exact .idle pass ih
  | up _ ih => exact .up ih
  | enter ordinary short found _ ih => exact .enter ordinary short found ih
  | @follow links _ _ _ _ _ ordinary short found _ ih =>
      rw [Nat.add_right_comm]
      exact .follow ordinary short found ih

/-- Names on whose way no link stands are only looked at below where they start. -/
theorem Looks.inside {place : Location} (looks : Looks disk links dir names place)
    (bare : Bare disk dir names) (ordinary : ∀ name ∈ names, Ordinary name) : dir <+: place := by
  induction looks with
  | here => exact List.prefix_append _ _
  | idle pass => exact absurd pass (by simp [(ordinary _ List.mem_cons_self).1,
      (ordinary _ List.mem_cons_self).2.1])
  | up => exact absurd rfl (ordinary ".." List.mem_cons_self).2.2
  | enter _ _ _ _ ih =>
      exact (List.prefix_append _ _).trans
        (ih bare.tail fun other member => ordinary other (List.mem_cons_of_mem _ member))
  | @follow _ _ _ name target _ _ _ found => exact absurd found (bare [name] (by simp) target)

/-- The answer of the system rests on the places that it looks at. -/
theorem chase_congr (aim : Aim) (links : Nat) (dir : Location) (names : List String)
    (same : ∀ place, Looks a links dir names place → b.get? place = a.get? place) :
    b.chase aim links dir names = a.chase aim links dir names := by
  induction links, dir, names using chase_induct a with
  | nil links dir => rw [chase_nil, chase_nil]
  | idle links dir name rest pass ih =>
      rw [chase_idle pass, chase_idle pass]
      exact ih fun place looks => same place (.idle pass looks)
  | up links dir rest ih =>
      rw [chase_up, chase_up]
      exact ih fun place looks => same place (.up looks)
  | ordinary links dir name rest ordinary enter follow =>
      rw [chase_ordinary ordinary, chase_ordinary ordinary]
      by_cases long : nameLimit < name.utf8ByteSize
      · rw [if_pos long, if_pos long]
      · have short : name.utf8ByteSize ≤ nameLimit := by omega
        rw [if_neg long, if_neg long, same _ (.here ordinary short)]
        cases found : a.get? (dir ++ [name]) with
        | none => rfl
        | some entry =>
            cases entry with
            | directory =>
                dsimp only
                rw [enter found fun place looks => same place (.enter ordinary short found looks)]
            | file bytes executable => rfl
            | pipe => rfl
            | link target =>
                cases links with
                | zero => rfl
                | succ fewer =>
                    dsimp only
                    rw [follow target fewer found rfl fun place looks =>
                      same place (.follow ordinary short found looks)]

/-- An answer is the same when more links may be followed. -/
theorem Finds.more {spot : Spot} (finds : Finds disk aim links dir names spot) (extra : Nat) :
    Finds disk aim (links + extra) dir names spot := by
  induction finds with
  | here => exact .here _ _
  | idle pass _ ih => exact .idle pass ih
  | up _ ih => exact .up ih
  | enter ordinary short asks found _ ih => exact .enter ordinary short asks found ih
  | @follow links _ _ _ _ _ ordinary short asks found onward _ ih =>
      rw [Nat.add_right_comm]
      exact .follow ordinary short asks found onward ih
  | free ordinary short asks found empty => exact .free ordinary short asks found empty
  | last ordinary short found notDirectory self =>
      exact .last ordinary short found notDirectory self

end Emplace.Disk
