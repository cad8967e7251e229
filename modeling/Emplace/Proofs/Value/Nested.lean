import Emplace.Proofs.Value.Merging
import Mathlib.Data.List.Infix

/-!
Merged mappings inside each other, looked at along paths of keys. A merge goes down a path as far as
both sides hold mappings; where one does not, the update decides if it has anything there, else the
base. Merging the same update once more changes nothing.
-/
namespace Emplace.Value

/-! ### Mappings inside each other -/

/-- Entries as a mapping can have them: each key can be one, and none comes twice. -/
structure Keyed (entries : Entries) : Prop where
  usable : ∀ entry ∈ entries, sameKey entry.1 entry.1 = true
  distinct : entries.Pairwise fun one other => sameKey one.1 other.1 = false

/-- Mappings down to values that are none. The way down ends everywhere, so no mapping leads back to
itself. -/
inductive Nested : Value → Prop where
  | leaf {value : Value} : value.entries? = none → Nested value
  | mapping {entries : Entries} : Keyed entries → (∀ entry ∈ entries, Nested entry.2) →
      Nested (map entries)

/-- What stands at a path of keys. -/
def at? : Value → List Value → Option Value
  | value, [] => some value
  | value, key :: rest => (value.entries?.bind (find? key)).bind fun inner => at? inner rest

/-- Whether both sides hold a mapping at a path. -/
def Meet (base update : Value) (path : List Value) : Prop :=
  ((base.at? path).bind entries?).isSome ∧ ((update.at? path).bind entries?).isSome

instance (base update : Value) (path : List Value) : Decidable (Meet base update path) :=
  inferInstanceAs (Decidable (_ ∧ _))

/-- The shortest part of a path, beginning at its front, at which not both sides hold a mapping. -/
structure PartsAt (base update : Value) (path cut : List Value) : Prop where
  proper : cut ≠ []
  within : cut <+: path
  apart : ¬ Meet base update cut
  first : ∀ front, front ≠ [] → front <+: cut → front ≠ cut → Meet base update front

variable {base update entries : Entries} {key value : Value} {path cut : List Value}

theorem find?_of_mem (keyed : Keyed entries) {entry : Value × Value} (member : entry ∈ entries) :
    find? entry.1 entries = some entry.2 := by
  obtain ⟨usable, distinct⟩ := keyed
  induction entries with
  | nil => cases member
  | cons head rest ih =>
      obtain ⟨apart, later⟩ := List.pairwise_cons.mp distinct
      rcases List.mem_cons.mp member with rfl | below
      · simp [find?, usable]
      · have other := apart entry below
        rw [find?, if_neg (by simp [other])]
        exact ih below (fun entry member => usable entry (List.mem_cons_of_mem _ member)) later

theorem mem_of_find? {entries : Entries} (found : find? key entries = some value) :
    ∃ entry ∈ entries, entry.2 = value := by
  induction entries with
  | nil => cases found
  | cons head rest ih =>
      obtain ⟨k, v⟩ := head
      by_cases same : sameKey k key = true
      · rw [find?, if_pos same, Option.some.injEq] at found
        exact ⟨(k, v), List.mem_cons_self, found⟩
      · rw [find?, if_neg same] at found
        obtain ⟨entry, member, here⟩ := ih found
        exact ⟨entry, List.mem_cons_of_mem _ member, here⟩

theorem Nested.eq_map (nested : Nested value) (held : value.entries? = some entries) :
    value = map entries := by
  cases nested with
  | leaf none =>
      rw [none] at held
      cases held
  | mapping keyed inner =>
      rw [entries?_map, Option.some.injEq] at held
      rw [held]

theorem Nested.keyed (nested : Nested (map entries)) : Keyed entries := by
  cases nested with
  | leaf none => cases none
  | mapping keyed inner => exact keyed

theorem Nested.inner (nested : Nested (map entries)) : ∀ entry ∈ entries, Nested entry.2 := by
  cases nested with
  | leaf none => cases none
  | mapping keyed inner => exact inner

theorem Nested.find (nested : Nested (map entries)) (found : find? key entries = some value) :
    Nested value := by
  obtain ⟨entry, member, rfl⟩ := mem_of_find? found
  exact nested.inner entry member

/-! ### What stands at a path of a merge -/

theorem at?_map_cons (entries : Entries) (key : Value) (rest : List Value) :
    (map entries).at? (key :: rest) = (find? key entries).bind fun inner => inner.at? rest := rfl

theorem meet_cons : Meet (map base) (map update) (key :: path) ↔
    ∃ old new, find? key base = some old ∧ find? key update = some new ∧ Meet old new path := by
  rw [Meet, at?_map_cons, at?_map_cons]
  cases find? key base with
  | none => simp
  | some old =>
      cases find? key update with
      | none => simp
      | some new => simp [Meet]

/-- A key under which both sides hold a mapping. -/
theorem Meet.mappings (nestedBase : Nested (map base)) (nestedUpdate : Nested (map update))
    (meet : Meet (map base) (map update) [key]) :
    ∃ old new, find? key base = some (map old) ∧ find? key update = some (map new) := by
  obtain ⟨old, new, found, foundNew, here⟩ := meet_cons.mp meet
  obtain ⟨oldEntries, ofOld⟩ := Option.isSome_iff_exists.mp here.1
  obtain ⟨newEntries, ofNew⟩ := Option.isSome_iff_exists.mp here.2
  refine ⟨oldEntries, newEntries, ?_, ?_⟩
  · rw [found, (nestedBase.find found).eq_map ofOld]
  · rw [foundNew, (nestedUpdate.find foundNew).eq_map ofNew]

theorem find?_mergeEntries_of_maps {old new : Entries} (found : find? key base = some (map old))
    (foundNew : find? key update = some (map new)) :
    find? key (mergeEntries base update) = some (map (mergeEntries old new)) := by
  rw [find?_mergeEntries_of_some found, updated, foundNew, ← mergeOver_map]

/-- Where not both values are mappings, the updating one takes the place of the present one. -/
theorem mergeOver_of_none {value new : Value}
    (apart : value.entries? = none ∨ new.entries? = none) : mergeOver value new = new := by
  cases value with
  | map entries =>
      have none : new.entries? = none := apart.resolve_left nofun
      simp [mergeOver, none]
  | _ => rfl

/-- A key under which not both sides hold a mapping is the update's where the update has it. -/
theorem find?_mergeEntries_of_apart (apart : ¬ Meet (map base) (map update) [key]) :
    find? key (mergeEntries base update) = (find? key update).or (find? key base) := by
  cases found : find? key base with
  | none => rw [find?_mergeEntries_of_none found, Option.or_none]
  | some old =>
      rw [find?_mergeEntries_of_some found, updated]
      cases foundNew : find? key update with
      | none => rfl
      | some new =>
          have leaf : old.entries? = none ∨ new.entries? = none := by
            by_contra both
            rw [not_or, ← ne_eq, ← ne_eq, Option.ne_none_iff_isSome,
              Option.ne_none_iff_isSome] at both
            exact apart (meet_cons.mpr ⟨old, new, found, foundNew, both⟩)
          exact congrArg some (mergeOver_of_none leaf)

/-- Under a key where both sides hold a mapping, they part where those mappings do. -/
theorem partsAt_cons_of_maps {old new : Entries} (found : find? key base = some (map old))
    (foundNew : find? key update = some (map new)) :
    PartsAt (map base) (map update) (key :: path) (key :: cut) ↔
      PartsAt (map old) (map new) path cut := by
  have under : ∀ front, Meet (map base) (map update) (key :: front) ↔
      Meet (map old) (map new) front := by
    intro front
    simp [meet_cons, found, foundNew]
  constructor
  · rintro ⟨-, within, apart, first⟩
    refine ⟨?_, (List.cons_prefix_cons.mp within).2, (under cut).not.mp apart, ?_⟩
    · rintro rfl
      exact apart ((under []).mpr ⟨rfl, rfl⟩)
    · intro front _ shorter other
      exact (under front).mp (first (key :: front) (List.cons_ne_nil _ _)
        (List.cons_prefix_cons.mpr ⟨rfl, shorter⟩) (by simpa using other))
  · rintro ⟨-, within, apart, first⟩
    refine ⟨List.cons_ne_nil _ _, List.cons_prefix_cons.mpr ⟨rfl, within⟩,
      (under cut).not.mpr apart, ?_⟩
    intro front proper shorter other
    obtain ⟨head, behind, rfl⟩ := List.exists_cons_of_ne_nil proper
    obtain ⟨rfl, below⟩ := List.cons_prefix_cons.mp shorter
    rw [under]
    by_cases empty : behind = []
    · exact empty ▸ ⟨rfl, rfl⟩
    · exact first behind empty below (by simpa using other)

/-- Under a key where not both sides hold a mapping, they part at once. -/
theorem partsAt_cons_of_apart (apart : ¬ Meet (map base) (map update) [key]) :
    PartsAt (map base) (map update) (key :: path) (key :: cut) ↔ cut = [] := by
  constructor
  · intro parts
    by_contra longer
    exact apart (parts.first [key] (List.cons_ne_nil _ _)
      (List.cons_prefix_cons.mpr ⟨rfl, List.nil_prefix⟩) (by simpa [eq_comm] using longer))
  · rintro rfl
    refine ⟨List.cons_ne_nil _ _, List.cons_prefix_cons.mpr ⟨rfl, List.nil_prefix⟩, apart, ?_⟩
    intro front proper shorter other
    obtain ⟨head, behind, rfl⟩ := List.exists_cons_of_ne_nil proper
    obtain ⟨rfl, below⟩ := List.cons_prefix_cons.mp shorter
    exact absurd (congrArg (head :: ·) (List.prefix_nil.mp below)) other

/-- Past the place where the two sides part, everything is the update's if it has something at that
place, else everything is the base's. -/
theorem at?_mergeEntries_of_partsAt (nestedBase : Nested (map base))
    (nestedUpdate : Nested (map update)) (parts : PartsAt (map base) (map update) path cut) :
    (map (mergeEntries base update)).at? path =
      if ((map update).at? cut).isSome then (map update).at? path else (map base).at? path := by
  induction path generalizing base update cut with
  | nil => exact absurd (List.prefix_nil.mp parts.within) parts.proper
  | cons key rest ih =>
      obtain ⟨first, behind, rfl⟩ := List.exists_cons_of_ne_nil parts.proper
      obtain ⟨rfl, within⟩ := List.cons_prefix_cons.mp parts.within
      by_cases meet : Meet (map base) (map update) [first]
      · obtain ⟨old, new, found, foundNew⟩ := meet.mappings nestedBase nestedUpdate
        have inner := ih (nestedBase.find found) (nestedUpdate.find foundNew)
          ((partsAt_cons_of_maps found foundNew).mp parts)
        simpa [at?_map_cons, found, foundNew, find?_mergeEntries_of_maps found foundNew] using inner
      · rw [(partsAt_cons_of_apart meet).mp parts, at?_map_cons, at?_map_cons, at?_map_cons,
          at?_map_cons, find?_mergeEntries_of_apart meet]
        cases find? first update with
        | none => rfl
        | some new => rfl

/-- Along a path on which both sides hold mappings, the merge holds what the two merge to. -/
theorem at?_mergeEntries_of_meet (nestedBase : Nested (map base))
    (nestedUpdate : Nested (map update))
    (meets : ∀ front, front ≠ [] → front <+: path → Meet (map base) (map update) front) :
    ∃ old new, (map base).at? path = some (map old) ∧ (map update).at? path = some (map new) ∧
      (map (mergeEntries base update)).at? path = some (map (mergeEntries old new)) := by
  induction path generalizing base update with
  | nil => exact ⟨base, update, rfl, rfl, rfl⟩
  | cons key rest ih =>
      have meet := meets [key] (List.cons_ne_nil _ _)
        (List.cons_prefix_cons.mpr ⟨rfl, List.nil_prefix⟩)
      obtain ⟨old, new, found, foundNew⟩ := meet.mappings nestedBase nestedUpdate
      have inner : ∀ front, front ≠ [] → front <+: rest → Meet (map old) (map new) front := by
        intro front proper shorter
        have outer := meets (key :: front) (List.cons_ne_nil _ _)
          (List.cons_prefix_cons.mpr ⟨rfl, shorter⟩)
        simpa [meet_cons, found, foundNew] using outer
      simpa [at?_map_cons, found, foundNew, find?_mergeEntries_of_maps found foundNew]
        using ih (nestedBase.find found) (nestedUpdate.find foundNew) inner

/-! ### The same update once more -/

theorem mergeEntries_eq_self
    (settled : ∀ entry ∈ base, updated update entry.1 entry.2 = entry.2)
    (known : ∀ entry ∈ update, (find? entry.1 base).isSome) : mergeEntries base update = base := by
  have same : base.map (fun entry => (entry.1, updated update entry.1 entry.2)) = base.map id :=
    List.map_congr_left fun entry member => Prod.ext rfl (settled entry member)
  have nothing : added base update = [] := by
    rw [added, List.filter_eq_nil_iff]
    intro entry member
    simpa [Option.isSome_iff_ne_none] using known entry member
  rw [mergeEntries, overlaid_eq_map, same, List.map_id, nothing, List.append_nil]

theorem mergeOver_self (nested : Nested value) : mergeOver value value = value := by
  induction nested with
  | leaf none => exact mergeOver_of_none (.inl none)
  | mapping keyed inner ih =>
      rw [mergeOver_map, mergeEntries_eq_self]
      · intro entry member
        rw [updated, find?_of_mem keyed member]
        exact ih entry member
      · intro entry member
        rw [find?_of_mem keyed member]
        rfl

/-- After a merge every value is such that the update leaves it as it is. -/
theorem mergeOver_again {value new : Value} (nested : Nested value) (nestedNew : Nested new) :
    mergeOver (mergeOver value new) new = mergeOver value new := by
  induction nested generalizing new with
  | leaf none => rw [mergeOver_of_none (.inl none), mergeOver_self nestedNew]
  | @mapping base keyed inner ih =>
      cases nestedNew with
      | leaf none => rw [mergeOver_of_none (.inr none), mergeOver_of_none (.inr none)]
      | @mapping update keyedNew innerNew =>
          rw [mergeOver_map, mergeOver_map, mergeEntries_eq_self]
          · intro entry member
            rw [mergeEntries, List.mem_append, overlaid_eq_map, List.mem_map] at member
            rcases member with ⟨old, ofBase, rfl⟩ | new
            · dsimp only [updated]
              cases found : find? old.1 update with
              | none => rfl
              | some new =>
                  exact ih old ofBase ((Nested.mapping keyedNew innerNew).find found)
            · have ofUpdate := List.mem_of_mem_filter new
              rw [updated, find?_of_mem keyedNew ofUpdate]
              exact mergeOver_self (innerNew entry ofUpdate)
          · intro entry member
            cases found : find? entry.1 base with
            | none =>
                rw [find?_mergeEntries_of_none found, find?_of_mem keyedNew member]
                rfl
            | some old =>
                rw [find?_mergeEntries_of_some found]
                rfl

theorem mergeEntries_again (nestedBase : Nested (map base)) (nestedUpdate : Nested (map update)) :
    mergeEntries (mergeEntries base update) update = mergeEntries base update := by
  have again := mergeOver_again nestedBase nestedUpdate
  rwa [mergeOver_map, mergeOver_map, map.injEq] at again

/-- A merge of nested mappings, at every path of keys: past the place where the two sides part the
update decides if it has anything there, and the base else; where they do not part, the merge holds
a mapping with the keys of the base and then the new ones of the update. Merging the same update
once more changes nothing. -/
theorem mergeEntries_nested (base update : Entries) (nestedBase : Nested (map base))
    (nestedUpdate : Nested (map update)) :
    (∀ path cut, PartsAt (map base) (map update) path cut →
      (map (mergeEntries base update)).at? path =
        if ((map update).at? cut).isSome then (map update).at? path else (map base).at? path) ∧
    (∀ path, (∀ front, front ≠ [] → front <+: path → Meet (map base) (map update) front) →
      ∃ old new, (map base).at? path = some (map old) ∧ (map update).at? path = some (map new) ∧
        (map (mergeEntries base update)).at? path = some (map (mergeEntries old new)) ∧
        (mergeEntries old new).map (·.1) =
          old.map (·.1) ++ (new.map (·.1)).filter fun key => (find? key old).isNone) ∧
    mergeEntries (mergeEntries base update) update = mergeEntries base update := by
  refine ⟨?_, ?_, mergeEntries_again nestedBase nestedUpdate⟩
  · intro path cut parts
    exact at?_mergeEntries_of_partsAt nestedBase nestedUpdate parts
  · intro path meets
    obtain ⟨old, new, ofBase, ofUpdate, merged⟩ :=
      at?_mergeEntries_of_meet nestedBase nestedUpdate meets
    exact ⟨old, new, ofBase, ofUpdate, merged, keys_mergeEntries old new⟩

/-- Two mappings under one key, written `1` and `true`. Inside them the update has a null over a
mapping, so that nothing stands below it any more, and a mapping over a number. -/
theorem mergeEntries_nested_null_over_mapping :
    let base : Entries :=
      [(int 1, map [(text "a", map [(text "x", int 7)]), (text "b", int 2)])]
    let update : Entries :=
      [(text "c", null), (bool true, map [(text "b", map [(text "y", null)]), (text "a", null)])]
    let merged := map (mergeEntries base update)
    merged.at? [int 1, text "a", text "x"] = none ∧
    merged.at? [int 1, text "b", text "y"] = some null ∧
    (∃ inner, merged.at? [bool true] = some (map inner) ∧
      inner.map (·.1) = [text "a", text "b"]) ∧
    mergeEntries (mergeEntries base update) update = mergeEntries base update := by
  intro base update merged
  have inBase : Nested (map base) := by
    refine .mapping ⟨by decide, by decide⟩ (List.forall_mem_singleton.mpr ?_)
    refine .mapping ⟨by decide, by decide⟩ (List.forall_mem_cons.mpr ⟨?_, ?_⟩)
    · exact .mapping ⟨by decide, by decide⟩ (List.forall_mem_singleton.mpr (.leaf rfl))
    · exact List.forall_mem_singleton.mpr (.leaf rfl)
  have inUpdate : Nested (map update) := by
    refine .mapping ⟨by decide, by decide⟩ (List.forall_mem_cons.mpr ⟨.leaf rfl, ?_⟩)
    refine List.forall_mem_singleton.mpr (.mapping ⟨by decide, by decide⟩ ?_)
    refine List.forall_mem_cons.mpr ⟨?_, List.forall_mem_singleton.mpr (.leaf rfl)⟩
    exact .mapping ⟨by decide, by decide⟩ (List.forall_mem_singleton.mpr (.leaf rfl))
  obtain ⟨parting, meeting, again⟩ := mergeEntries_nested base update inBase inUpdate
  refine ⟨?_, ?_, ?_, again⟩
  · exact parting _ _ ((partsAt_cons_of_maps rfl rfl).mpr
      ((partsAt_cons_of_apart (by decide)).mpr rfl))
  · exact parting _ _ ((partsAt_cons_of_maps rfl rfl).mpr
      ((partsAt_cons_of_apart (by decide)).mpr rfl))
  · have meets : ∀ front, front ≠ [] → front <+: [bool true] →
        Meet (map base) (map update) front := by
      intro front proper shorter
      obtain ⟨head, behind, rfl⟩ := List.exists_cons_of_ne_nil proper
      obtain ⟨rfl, below⟩ := List.cons_prefix_cons.mp shorter
      rw [List.prefix_nil.mp below]
      decide
    obtain ⟨old, new, ofBase, ofUpdate, here, keys⟩ := meeting [bool true] meets
    cases ofBase
    cases ofUpdate
    exact ⟨_, here, keys⟩

end Emplace.Value
