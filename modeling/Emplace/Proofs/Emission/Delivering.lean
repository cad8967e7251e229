import Emplace.Proofs.Disk.Linkless
import Emplace.Proofs.Emission.Writing

/-!
What an emission delivers where. Different paths can be taken for one location, so deliveries are
told apart by their targets: below a root without links a target holds in the end what was delivered
to it last, and beside the targets only directories are new.
-/
namespace Emplace

open Disk

theorem targetLocation_grows {a b : Disk} (sound : Sound a) (growth : Grows a b) {root : Path}
    {rel : String} (straight : ¬ Circular a (root.join (Path.ofString rel)))
    (plain : ¬ Circular a root) : targetLocation b root rel = targetLocation a root rel := by
  unfold targetLocation
  rw [(canonical_grows sound growth straight).1, (canonical_grows sound growth plain).1]

/-- What is let through is taken for a location below the root. -/
theorem Disk.LinkFree.target_inside {a b : Disk} {root : Path} {base target : Location} {rel : String}
    (free : LinkFree a root base) (growth : Grows a b)
    (accepted : targetLocation b root rel = .ok target) :
    b.canonical (root.join (Path.ofString rel)) = .ok target ∧ base <+: target := by
  obtain ⟨taken, top, resolved, inside⟩ := targetLocation_eq_ok accepted
  rw [free.canonical_eq growth] at resolved
  cases resolved
  exact ⟨taken, inside⟩

namespace Emission

/-- A record whose output is written, with the location that its path is taken for and the bytes
that it is given. -/
structure Delivery where
  record : Record
  target : Location
  bytes : ByteArray

/-- The bytes that the output of a record is given, if it comes to that. -/
def supplied? (plan : Emission) (disk : Disk) (record : Record) : Option ByteArray :=
  match record.state with
  | .ambiguous => none
  | .unmatched => plan.words.content.toOption.map String.toUTF8
  | _ => record.source.bind fun source => (disk.readBytes source).toOption

/-- The directories above a target, made where they are missing. -/
def readied (disk : Disk) (target : Location) : Disk :=
  (disk.ensureDirectory (pathOf target).parent).1

/-- The delivery that an emission makes at one of its stops. -/
def delivery? (plan : Emission) (stop : Disk × Record) : Option Delivery :=
  match targetLocation stop.1 (plan.rootOf stop.2.state) stop.2.path with
  | .error _ => none
  | .ok target =>
    (plan.supplied? (readied stop.1 target) stop.2).map fun bytes => ⟨stop.2, target, bytes⟩

/-- The deliveries of an emission, in order. -/
def deliveries (plan : Emission) (disk : Disk) (records : List Record) : List Delivery :=
  (plan.stops disk records).filterMap plan.delivery?

/-- The last of some deliveries to a location. -/
def lastTo? (loc : Location) (deliveries : List Delivery) : Option Delivery :=
  deliveries.reverse.find? fun delivery => delivery.target = loc

/-- What deliveries leave behind: the last bytes at each of their targets, all else spared. -/
def Delivered (before after : Disk) (deliveries : List Delivery) : Prop :=
  ∀ loc, match lastTo? loc deliveries with
    | some delivery => Stands after loc delivery.bytes
    | none => Spared before after loc

variable {plan : Emission} {first disk next after : Disk} {base loc : Location} {record : Record}
  {records : List Record}

theorem lastTo?_cons (loc : Location) (delivery : Delivery) (rest : List Delivery) :
    lastTo? loc (delivery :: rest) =
      (lastTo? loc rest).or (if delivery.target = loc then some delivery else none) := by
  by_cases here : delivery.target = loc <;> simp [lastTo?, here]

/-- What was delivered is there in the end exactly where the last delivery to its target brought the
same bytes. -/
theorem Delivered.stands_iff {deliveries : List Delivery} (left : Delivered disk after deliveries)
    {delivery : Delivery} (member : delivery ∈ deliveries) :
    Stands after delivery.target delivery.bytes ↔
      (lastTo? delivery.target deliveries).map Delivery.bytes = some delivery.bytes := by
  have some : (lastTo? delivery.target deliveries).isSome := by
    rw [lastTo?, List.find?_isSome]
    exact ⟨delivery, List.mem_reverse.mpr member, by simp⟩
  obtain ⟨last, found⟩ := Option.isSome_iff_exists.mp some
  have there := left delivery.target
  rw [found] at there ⊢
  rw [Option.map_some, Option.some.injEq]
  constructor
  · exact fun kept => there.unique kept
  · intro same
    rwa [← same]

theorem supplied?_eq_some {bytes : ByteArray} (supplies : plan.Supplies disk record bytes) :
    plan.supplied? disk record = some bytes := by
  unfold supplied?
  cases supplies with
  | standIn state content => simp [state, content, Except.toOption]
  | copied matched known read =>
      cases state : record.state <;> simp_all [MatchState.isMatch, Except.toOption]

/-! ### One record -/

/-- What the writing of a record comes to below a root without links: once the directories above
are made, its bytes come to the location that its path is taken for, and to no other. -/
structure Delivers (plan : Emission) (base : Location) (disk : Disk) (record : Record)
    (delivery : Delivery) (after : Disk) : Prop where
  listed : plan.delivery? (disk, record) = some delivery
  named : delivery.record = record
  accepted : targetLocation disk plan.root record.path = .ok delivery.target
  inside : base <+: delivery.target
  supplied : plan.Supplies (readied disk delivery.target) record delivery.bytes
  grows : Grows (readied disk delivery.target) after
  stands : Stands after delivery.target delivery.bytes
  beside : ∀ loc, loc ≠ delivery.target →
    after.get? loc = (readied disk delivery.target).get? loc

section
variable {delivery : Delivery} (delivers : plan.Delivers base disk record delivery after)
include delivers

theorem Delivers.off : SameOff (base <+: ·) (readied disk delivery.target) after := by
  intro loc outside
  apply delivers.beside
  rintro rfl
  exact outside delivers.inside

theorem Delivers.fills : Fills base (readied disk delivery.target) after :=
  ⟨delivers.grows, fun loc outside => Or.inl (delivers.off loc outside)⟩

theorem Delivers.fills_all : Fills base disk after :=
  (ensureDirectory_fills disk _ base).trans delivers.fills

theorem Delivers.spares {loc : Location} (other : loc ≠ delivery.target) : Spared disk after loc :=
  (ensureDirectory_spares disk (pathOf delivery.target).parent loc).trans
    (Or.inl (delivers.beside loc other))

end

/-- A record that is written without a failure is passed over or delivered. -/
theorem writeRecord_delivers (free : LinkFree first plan.root base) (growth : Grows first disk)
    (same : plan.placeholderRoot = plan.root)
    (written : plan.writeRecord disk record = (after, .ok ())) :
    (record.state = .ambiguous ∧ after = disk) ∨
      (record.state ≠ .ambiguous ∧ ∃ delivery, plan.Delivers base disk record delivery after) := by
  have writes := writeRecord_writes plan disk record
  rw [written] at writes
  cases writes with
  | skipped ambiguous => exact Or.inl ⟨ambiguous, rfl⟩
  | @done target made _ bytes accepted ready supplied stored =>
      have grown : Grows disk (readied disk target) := ensureDirectory_grows disk _
      obtain rfl : made = readied disk target := by rw [readied, ready]
      have delivers : plan.delivery? (disk, record) = some ⟨record, target, bytes⟩ := by
        simp [delivery?, accepted, supplied?_eq_some supplied]
      rw [rootOf_eq same] at accepted
      obtain ⟨taken, inside⟩ := free.target_inside growth accepted
      have ordinary := canonical_ordinary (free.sound.grounded.grows growth) taken
      have later := writeBytes_grows stored
      -- No link is left on the target, so the system opens the very file.
      have bare := free.bare (growth.trans grown) inside
      obtain ⟨spot, executable, reached, rfl, below, _⟩ := writeBytes_eq_ok stored
      have place := place_of_locate_bare bare ordinary reached
      rw [place] at below later ⊢
      exact Or.inr ⟨supplied.settled, _, delivers, rfl, accepted, inside, supplied, later,
        ⟨executable, get?_put_same _ _ below⟩, fun loc other => get?_put_other _ _ other⟩

/-! ### All records -/

theorem deliveries_cons {rest : List Record}
    (written : plan.writeRecord disk record = (next, .ok ())) :
    plan.deliveries disk (record :: rest) =
      (plan.delivery? (disk, record)).toList ++ plan.deliveries next rest := by
  rw [Emission.deliveries, stops, written, List.filterMap_cons]
  cases plan.delivery? (disk, record) <;> rfl

theorem deliveries_passed {rest : List Record} (ambiguous : record.state = .ambiguous) :
    plan.deliveries disk (record :: rest) = plan.deliveries disk rest := by
  have none : plan.delivery? (disk, record) = none := by
    unfold delivery?
    split
    · rfl
    · simp [supplied?, ambiguous]
  rw [deliveries_cons (writeRecord_ambiguous ambiguous), none]
  rfl

theorem WritesAll.fills (free : LinkFree first plan.root base) (growth : Grows first disk)
    (same : plan.placeholderRoot = plan.root) (writes : WritesAll plan disk records after) :
    Fills base disk after := by
  induction writes with
  | nil disk => exact .refl base disk
  | cons written _ ih =>
      rcases writeRecord_delivers free growth same written with ⟨_, rfl⟩ | ⟨_, _, delivers⟩
      · exact ih growth
      · exact delivers.fills_all.trans (ih (growth.trans delivers.fills_all.grows))

/-- Every delivery is made at some point of the emission. -/
theorem WritesAll.mem_deliveries (free : LinkFree first plan.root base) (growth : Grows first disk)
    (same : plan.placeholderRoot = plan.root) (writes : WritesAll plan disk records after)
    {delivery : Delivery} (member : delivery ∈ plan.deliveries disk records) :
    ∃ stop next, Fills base disk stop ∧
      plan.Delivers base stop delivery.record delivery next ∧ Fills base next after := by
  induction writes with
  | nil => cases member
  | @cons disk next after record rest written later ih =>
      rcases writeRecord_delivers free growth same written with
        ⟨ambiguous, rfl⟩ | ⟨_, other, delivers⟩
      · rw [deliveries_passed ambiguous] at member
        exact ih growth member
      · have grown := growth.trans delivers.fills_all.grows
        rw [deliveries_cons written, delivers.listed] at member
        rcases List.mem_cons.mp member with rfl | late
        · exact ⟨disk, next, .refl base disk, delivers.named ▸ delivers,
            later.fills free grown same⟩
        · obtain ⟨stop, last, early, made, onward⟩ := ih grown late
          exact ⟨stop, last, delivers.fills_all.trans early, made, onward⟩

/-- Every record that is not ambiguous is delivered once, and each target holds what came to it
last. -/
theorem WritesAll.delivers (free : LinkFree first plan.root base) (growth : Grows first disk)
    (same : plan.placeholderRoot = plan.root) (writes : WritesAll plan disk records after) :
    (plan.deliveries disk records).map Delivery.record = decided records ∧
      Delivered disk after (plan.deliveries disk records) := by
  induction writes with
  | nil disk => exact ⟨rfl, fun loc => Or.inl rfl⟩
  | @cons disk next after record rest written _ ih =>
      rcases writeRecord_delivers free growth same written with
        ⟨ambiguous, rfl⟩ | ⟨settled, delivery, delivers⟩
      · rw [deliveries_passed ambiguous]
        obtain ⟨listed, left⟩ := ih growth
        refine ⟨?_, left⟩
        simpa [decided, ambiguous] using listed
      · obtain ⟨listed, left⟩ := ih (growth.trans delivers.fills_all.grows)
        rw [deliveries_cons written, delivers.listed, Option.toList_some, List.singleton_append]
        refine ⟨?_, fun loc => ?_⟩
        · simp only [List.map_cons, delivers.named, listed]
          simp [decided, settled]
        · have later := left loc
          rw [lastTo?_cons]
          cases last : lastTo? loc (plan.deliveries next rest) with
          | some other =>
              rw [last] at later
              exact later
          | none =>
              rw [last] at later
              by_cases here : delivery.target = loc
              · subst here
                rw [Option.none_or, if_pos rfl]
                exact later.stands delivers.stands
              · rw [Option.none_or, if_neg here]
                exact (delivers.spares (Ne.symm here)).trans later

end Emission
end Emplace
