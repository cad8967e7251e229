import Emplace.Proofs.Json.Reading
import Emplace.Proofs.Report.Counting

/-!
Reading a report back. `Summary.read?` takes a text for a report and gives what it says: the import
path, the total, the results in order and the counts of the states. What `Report.text` has written
says what the report holds, whatever the texts in it are, so that reports that say different things
are never written alike.
-/
namespace Emplace

/-! ### Parts of a document -/

namespace Json

/-- The value of the first field of a name. -/
def get? (name : String) : Json → Option Json
  | .object fields => fields.lookup name
  | _ => none

def asText? : Json → Option String
  | .text s => some s
  | _ => none

/-- A text, where one may be missing. -/
def asTextOrNull? : Json → Option (Option String)
  | .null => some none
  | .text s => some (some s)
  | _ => none

/-- A number without a sign, digits behind the point or a power of ten. -/
def asNatural? : Json → Option Nat
  | .number ⟨false, n, [], none⟩ => some n
  | _ => none

def asItems? : Json → Option (List Json)
  | .array items => some items
  | _ => none

def asFields? : Json → Option (List (String × Json))
  | .object fields => some fields
  | _ => none

end Json

def MatchState.ofLabel? (label : String) : Option MatchState :=
  MatchState.all.find? fun state => state.label == label

namespace Report

/-- What a report says of a record. -/
structure Result where
  path : String
  state : MatchState
  source : Option String
  deriving DecidableEq, Repr

def Result.of (record : Record) : Result :=
  ⟨record.path, record.state, record.source.map Path.text⟩

def Result.ofJson? (json : Json) : Option Result := do
  let path ← json.get? "path" >>= Json.asText?
  let label ← json.get? "state" >>= Json.asText?
  let state ← MatchState.ofLabel? label
  let source ← json.get? "source" >>= Json.asTextOrNull?
  return ⟨path, state, source⟩

/-- What a report says, but for the times. -/
structure Summary where
  importpath : String
  total : Nat
  results : List Result
  counts : List (MatchState × Nat)
  deriving DecidableEq, Repr

namespace Summary

def of (report : Report) : Summary :=
  ⟨report.importpath, report.records.length, report.records.map Result.of,
    tally (report.records.map Record.state)⟩

def countOfField? (field : String × Json) : Option (MatchState × Nat) := do
  let state ← MatchState.ofLabel? field.1
  let count ← field.2.asNatural?
  return (state, count)

def ofJson? (json : Json) : Option Summary := do
  let top ← json.get? "meta"
  let importpath ← top.get? "importpath" >>= Json.asText?
  let total ← top.get? "total_expected" >>= Json.asNatural?
  let items ← json.get? "results" >>= Json.asItems?
  let results ← items.mapM Result.ofJson?
  let stats ← json.get? "stats"
  let fields ← stats.get? "state_counts" >>= Json.asFields?
  let counts ← fields.mapM countOfField?
  return ⟨importpath, total, results, counts⟩

/-- What a text says that is a report. -/
def read? (text : String) : Option Summary :=
  Json.read? text >>= ofJson?

end Summary

/-! ### What a written report says -/

theorem mapM_reads {Item Part Value : Type} {read? : Part → Option Value} {write : Item → Part}
    {value : Item → Value} (reads : ∀ item, read? (write item) = some (value item))
    (items : List Item) : (items.map write).mapM read? = some (items.map value) := by
  have each : read? ∘ write = fun item => some (value item) := funext reads
  rw [List.mapM_map, each]
  exact List.mapM_pure

theorem asNatural?_ofNat (n : Nat) : (Json.number (.ofNat n)).asNatural? = some n := rfl

theorem ofLabel?_label (state : MatchState) : MatchState.ofLabel? state.label = some state := by
  cases state <;> decide

theorem ofJson?_resultJson (record : Record) :
    Result.ofJson? (resultJson record) = some (Result.of record) := by
  have known := ofLabel?_label record.state
  cases source : record.source <;>
    simp [Result.ofJson?, resultJson, Json.get?, Json.asText?, Json.asTextOrNull?, List.lookup_cons,
      known, source, Result.of]

theorem countOfField?_label (count : MatchState × Nat) :
    Summary.countOfField? (count.1.label, .number (.ofNat count.2)) = some count := by
  simp [Summary.countOfField?, ofLabel?_label, asNatural?_ofNat]

theorem mapM_stateCounts (report : Report) :
    (report.stateCounts.map fun count => (count.1, Json.number (.ofNat count.2))).mapM
      Summary.countOfField? = some (tally (report.records.map Record.state)) := by
  have counts := mapM_reads countOfField?_label (tally (report.records.map Record.state))
  rw [List.map_id'] at counts
  rw [stateCounts_eq, relabel, List.map_map]
  exact counts

theorem ofJson?_json (report : Report) (times : Times) :
    Summary.ofJson? (report.json times) = some (.of report) := by
  have results := mapM_reads ofJson?_resultJson report.records
  have counts := mapM_stateCounts report
  simp [Summary.ofJson?, json, Json.get?, Json.asText?, asNatural?_ofNat, Json.asItems?,
    Json.asFields?, List.lookup_cons, results, counts, Summary.of, -List.mapM_map]

theorem read?_text (report : Report) (times : Times) :
    Summary.read? (report.text times) = some (.of report) := by
  rw [Summary.read?, text, Json.read?_render]
  exact ofJson?_json report times

theorem ascii_text (report : Report) (times : Times) :
    ∀ c ∈ (report.text times).toList, c.toNat < 128 := by
  rw [text, Json.render, String.toList_ofList]
  exact Json.ascii_chars _ 0

theorem foldl_add (groups : List (List Record)) (report : Report) :
    groups.foldl add report = ⟨report.importpath, report.records ++ groups.flatten⟩ := by
  induction groups generalizing report with
  | nil => simp
  | cons group rest ih => simp [ih, add]

theorem stands_of_write {report : Report} {times : Times} {disk : Disk} {file : String}
    (done : (report.write times disk file).2 = .ok ()) :
    ∃ loc, (report.write times disk file).1.Stands loc (report.text times).toUTF8 := by
  rw [write] at done ⊢
  rcases ready : disk.ensureDirectory (Path.ofString file).parent with ⟨made, fault | _⟩
  · rw [ready] at done
    cases done
  · rw [ready] at done
    cases written : made.writeBytes (Path.ofString file) (report.text times).toUTF8 with
    | error fault =>
        simp only [written] at done
        cases done
    | ok last =>
        obtain ⟨spot, executable, -, rfl, below, -⟩ := Disk.writeBytes_eq_ok written
        simp only [written]
        exact ⟨spot.place, executable, Disk.get?_put_same made _ below⟩

theorem read?_text_groups (importpath : String) (groups : List (List Record)) (times : Times) :
    Summary.read? ((groups.foldl add (empty importpath)).text times) = some
      ⟨importpath, groups.flatten.length, groups.flatten.map Result.of,
        tally (groups.flatten.map Record.state)⟩ := by
  rw [read?_text, foldl_add]
  rfl

/-- A report is written in ASCII, and what it says of any records, group after group, is read from
its text again: two reports that do not say the same are not written alike. -/
theorem text_reads_back (importpath : String) (groups : List (List Record)) (times : Times) :
    let report := groups.foldl add (empty importpath)
    (∀ disk file, (report.write times disk file).2 = .ok () →
      ∃ loc, (report.write times disk file).1.Stands loc (report.text times).toUTF8) ∧
    (∀ c ∈ (report.text times).toList, c.toNat < 128) ∧
    Summary.read? (report.text times) = some
      ⟨importpath, groups.flatten.length, groups.flatten.map Result.of,
        tally (groups.flatten.map Record.state)⟩ ∧
    ∀ (otherPath : String) (otherGroups : List (List Record)) (otherTimes : Times),
      otherPath ≠ importpath ∨ otherGroups.flatten.map Result.of ≠ groups.flatten.map Result.of →
      (otherGroups.foldl add (empty otherPath)).text otherTimes ≠ report.text times := by
  intro report
  refine ⟨fun disk file done => stands_of_write done, ascii_text report times,
    read?_text_groups importpath groups times, ?_⟩
  intro otherPath otherGroups otherTimes different same
  have equal := read?_text_groups otherPath otherGroups otherTimes
  rw [same, read?_text_groups importpath groups times, Option.some.injEq, Summary.mk.injEq] at equal
  obtain ⟨path, -, results, -⟩ := equal
  rcases different with paths | listed
  · exact paths path.symm
  · exact listed results.symm

/-- A character beyond ASCII and the text of its escape, in paths that are otherwise the same. -/
theorem text_reads_back_escape :
    let groups (name : String) : List (List Record) :=
      [[⟨"a/" ++ name, name, true, true, .exact, some ⟨.root, ["tmp", "\"\x07"]⟩⟩], [],
        [Record.ofPath "b" true]]
    let report := (groups "😀").foldl add (empty "ex\\\n")
    let disk : Disk := ⟨[], [(["tmp"], .directory)]⟩
    Summary.read? (report.text ⟨7, 0⟩) = some
      ⟨"ex\\\n", 2, [⟨"a/😀", .exact, some "/tmp/\"\x07"⟩, ⟨"b", .unmatched, none⟩],
        [(.exact, 1), (.unmatched, 1)]⟩ ∧
    (∃ loc, (report.write ⟨7, 0⟩ disk "/out/r.json").1.Stands loc
      (report.text ⟨7, 0⟩).toUTF8) ∧
    ((groups "\\ud83d\\ude00").foldl add (empty "ex\\\n")).text ⟨8, 1⟩ ≠ report.text ⟨7, 0⟩ := by
  intro groups report disk
  obtain ⟨written, -, told, apart⟩ := text_reads_back "ex\\\n" (groups "😀") ⟨7, 0⟩
  have results : (groups "\\ud83d\\ude00").flatten.map Result.of ≠
      (groups "😀").flatten.map Result.of := by decide +kernel
  exact ⟨told.trans (by decide +kernel), written disk "/out/r.json" (by decide +kernel),
    apart _ _ _ (Or.inr results)⟩

end Report
end Emplace
