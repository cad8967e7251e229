import Emplace.Proofs.CommandLine.Tokens
import Mathlib.Algebra.BigOperators.Group.List.Basic
import Mathlib.Algebra.GroupWithZero.Nat

/-!
Writing a request as a command line. An item is a flag with its value, or some steps of verbosity;
`Writes` lists the ways in which it is written and `Arranges` where the sources may stand. However
the items of a request are written and interleaved, the command line is read as that request.
-/
namespace Emplace.CommandLine

/-- One thing that a command line asks for besides the sources. -/
inductive Item where
  | valued (flag : Flag) (value : String)
  | louder (steps : Nat)
  deriving DecidableEq, Repr

/-- The ways in which an item is written. -/
inductive Writes : Item → List String → Prop where
  /-- A value behind an equals sign may be any text but the divider. -/
  | attached {spelling : Spelling} {value : String} :
      spelling ∈ spellings → spelling.flag.takesValue → value ≠ "--" →
      Writes (.valued spelling.flag value) [spelling.text ++ "=" ++ value]
  | apart {spelling : Spelling} {value : String} :
      spelling ∈ spellings → spelling.flag.takesValue → ¬ Hyphened value →
      Writes (.valued spelling.flag value) [spelling.text, value]
  | letters (more : Nat) : Writes (.louder (more + 1)) [letters (more + 1)]
  | word : Writes (.louder 1) ["--verbose"]

/-- Items that are written one after the other. -/
inductive WritesAll : List Item → List String → Prop where
  | nil : WritesAll [] []
  | cons {item : Item} {items : List Item} {arguments rest : List String} :
      Writes item arguments → WritesAll items rest → WritesAll (item :: items) (arguments ++ rest)

/-- Where the sources stand: in one group between two items, or behind a divider at the end. -/
inductive Arranges (sources : List String) : List Item → List String → Prop where
  | grouped {before after : List Item} {first last : List String} :
      WritesAll before first → (∀ source ∈ sources, ¬ Hyphened source) → WritesAll after last →
      Arranges sources (before ++ after) (first ++ sources ++ last)
  | divided {items : List Item} {arguments : List String} :
      WritesAll items arguments → Arranges sources items (arguments ++ "--" :: sources)

/-- The values that items give for a flag, in order. -/
def values (flag : Flag) (items : List Item) : List String :=
  items.filterMap fun
    | .valued other value => if other = flag then some value else none
    | .louder _ => none

def Item.steps : Item → Nat
  | .valued _ _ => 0
  | .louder steps => steps

/-- The steps of verbosity that items come to. -/
def loudness (items : List Item) : Nat :=
  (items.map Item.steps).sum

/-- Items that ask for what a request holds: every value once, and those of a repeated flag in their
order. -/
structure Specifies (items : List Item) (request : Request) : Prop where
  compiler : values .compiler items = [request.compiler]
  outPath : values .outPath items = [request.outPath]
  plugin : values .plugin items = [request.plugin]
  importpath : values .importpath items = [request.importpath] ∨
    values .importpath items = [] ∧ request.importpath = ""
  options : values .option items = request.options
  descriptorSets : values .descriptorSet items = request.descriptorSets
  includes : values .includeDir items = request.includes
  expected : values .expected items = request.expected
  imports : values .importItem items = request.imports
  leading : values .leading items = request.leading
  config : values .config items = request.config.toList
  report : values .report items = request.report.toList
  verbosity : loudness items = request.verbosity

/-! ### Taking items in -/

/-- The draft with one more item, which ends the group of sources if there is one. -/
def Draft.take (draft : Draft) : Item → Draft
  | .valued flag value => draft.close.set value flag
  | .louder steps => { draft.close with verbosity := draft.close.verbosity + steps }

theorem raiseAll_replicate (draft : Draft) (count : Nat) :
    draft.raiseAll (List.replicate count .verbose) =
      .ok { draft with verbosity := draft.verbosity + count } := by
  induction count generalizing draft with
  | zero => rfl
  | succ count ih =>
      rw [List.replicate_succ, Draft.raiseAll, Draft.raise]
      · simp only [ih]
        congr 2
        omega
      · intro same
        cases same

theorem consume_raise {spelling : Spelling} (verbose : spelling.flag = .verbose) (draft : Draft)
    (rest : List Token) :
    consume draft (.flag spelling none :: rest) = consume (draft.take (.louder 1)) rest := by
  have raised : draft.close.raise spelling.flag = .ok (draft.take (.louder 1)) := by
    rw [verbose]
    rfl
  have plain : spelling.flag.takesValue = false := by rw [verbose]; rfl
  rcases rest with _ | ⟨⟨⟩ | _ | _ | _, _⟩ <;> simp [consume, plain, raised]

/-- What the writing of an item is read as. -/
theorem Writes.reads {item : Item} {arguments : List String} (writes : Writes item arguments) :
    ∃ read, Lexes arguments read ∧
      ∀ draft rest, consume draft (read ++ rest) = consume (draft.take item) rest := by
  cases writes with
  | attached known valued other =>
      refine ⟨_, lexes_attached known _, fun draft rest => ?_⟩
      simp [consume, valued, Draft.take]
  | @apart spelling value known valued plain =>
      refine ⟨_, (lexes_text known).append (lexes_plain plain), fun draft rest => ?_⟩
      simp [consume, valued, Draft.take]
  | letters more =>
      cases more with
      | zero =>
          have short : (⟨"-v", .verbose⟩ : Spelling) ∈ spellings := by decide
          exact ⟨_, lexes_text short, consume_raise rfl⟩
      | succ more =>
          refine ⟨_, lexes_singleton ?_ (classify_letters more), fun draft rest => ?_⟩
          · intro same
            have listed := toList_letters (more + 2)
            rw [same] at listed
            cases listed
          · rw [List.singleton_append, consume]
            simp [Flag.takesValue, unbundle_letters, raiseAll_replicate, Draft.take]
  | word =>
      have long : (⟨"--verbose", .verbose⟩ : Spelling) ∈ spellings := by decide
      exact ⟨_, lexes_text long, consume_raise rfl⟩

theorem WritesAll.reads {items : List Item} {arguments : List String}
    (writes : WritesAll items arguments) :
    ∃ read, Lexes arguments read ∧
      ∀ draft rest, consume draft (read ++ rest) = consume (items.foldl Draft.take draft) rest := by
  induction writes with
  | nil => exact ⟨[], lexes_nil, fun _ _ => rfl⟩
  | cons first _ ih =>
      obtain ⟨read, lexes, taken⟩ := first.reads
      obtain ⟨more, later, all⟩ := ih
      refine ⟨_, lexes.append later, fun draft rest => ?_⟩
      rw [List.append_assoc, taken, all]
      rfl

theorem consume_plains (draft : Draft) (texts : List String) (rest : List Token) :
    consume draft (texts.map .plain ++ rest) =
      consume (texts.foldl Draft.takePlain draft) rest := by
  induction texts generalizing draft with
  | nil => rfl
  | cons text more ih => simp [consume, ih]

/-! ### What a draft holds -/

theorem values_append (flag : Flag) (items more : List Item) :
    values flag (items ++ more) = values flag items ++ values flag more :=
  List.filterMap_append

theorem values_valued (flag other : Flag) (value : String) :
    values flag [.valued other value] = if other = flag then [value] else [] := by
  by_cases same : other = flag <;> simp [values, same]

theorem values_louder (flag : Flag) (steps : Nat) : values flag [.louder steps] = [] := rfl

/-- How far the group of sources has come once an item follows. -/
def SourceGroup.ended : SourceGroup → SourceGroup
  | .present => .closed
  | group => group

/-- The draft that holds what items ask for, and some sources. -/
def Draft.of (items : List Item) (sources : List String) (group : SourceGroup) : Draft where
  compiler := (values .compiler items).getLast?
  outPath := (values .outPath items).getLast?
  plugin := (values .plugin items).getLast?
  importpath := (values .importpath items).getLast?.getD ""
  options := values .option items
  descriptorSets := values .descriptorSet items
  includes := values .includeDir items
  expected := values .expected items
  imports := values .importItem items
  leading := values .leading items
  config := (values .config items).getLast?
  report := (values .report items).getLast?
  verbosity := loudness items
  sources := sources
  group := group
  unknown := []

namespace Draft

theorem close_of (items : List Item) (sources : List String) (group : SourceGroup) :
    (of items sources group).close = of items sources group.ended := by
  cases group <;> rfl

theorem take_of (items : List Item) (sources : List String) (group : SourceGroup) (item : Item) :
    (of items sources group).take item = of (items ++ [item]) sources group.ended := by
  cases item with
  | louder steps =>
      rw [take, close_of]
      simp [of, values_append, values_louder, loudness, Item.steps]
  | valued flag value =>
      rw [take, close_of]
      cases flag <;>
        simp [of, set, values_append, values_valued, loudness, Item.steps]

/-- Items on their own do not end a group of sources that has not begun. -/
theorem foldl_take_of (items more : List Item) (sources : List String) (group : SourceGroup) :
    ∃ after, more.foldl take (of items sources group) = of (items ++ more) sources after ∧
      (group = .awaited → after = .awaited) := by
  induction more generalizing items group with
  | nil => exact ⟨group, by simp, id⟩
  | cons item rest ih =>
      obtain ⟨after, same, kept⟩ := ih (items ++ [item]) group.ended
      refine ⟨after, ?_, fun awaited => kept (by rw [awaited]; rfl)⟩
      rw [List.foldl_cons, take_of, same, List.append_assoc]
      rfl

theorem foldl_takePlain_of (items : List Item) (sources texts : List String)
    (group : SourceGroup) (unended : group ≠ .closed) :
    ∃ after, texts.foldl takePlain (of items sources group) =
      of items (sources ++ texts) after := by
  induction texts generalizing sources group with
  | nil => exact ⟨group, by simp⟩
  | cons text rest ih =>
      have first : (of items sources group).takePlain text =
          of items (sources ++ [text]) .present := by
        cases group <;> first | rfl | exact absurd rfl unended
      obtain ⟨after, same⟩ := ih (sources ++ [text]) .present (by decide)
      exact ⟨after, by rw [List.foldl_cons, first, same, List.append_assoc]; rfl⟩

theorem finish_of {items : List Item} {request : Request} (specifies : Specifies items request)
    (group : SourceGroup) : (of items request.sources group).finish = .ok request := by
  have importpath : (values .importpath items).getLast?.getD "" = request.importpath := by
    rcases specifies.importpath with given | ⟨absent, default⟩
    · simp [given]
    · simp [absent, default]
  have config : (values .config items).getLast? = request.config := by
    rw [specifies.config]
    cases request.config <;> rfl
  have report : (values .report items).getLast? = request.report := by
    rw [specifies.report]
    cases request.report <;> rfl
  simp [finish, of, importpath, config, report, specifies.compiler, specifies.outPath,
    specifies.plugin, specifies.options, specifies.descriptorSets, specifies.includes,
    specifies.expected, specifies.imports, specifies.leading, specifies.verbosity]

end Draft

/-! ### The round trip -/

/-- However the items of a request are written and interleaved, and wherever its sources stand, the
command line is read as the request. -/
theorem parse_of_arranges {items : List Item} {request : Request} {arguments : List String}
    (specifies : Specifies items request)
    (arranges : Arranges request.sources items arguments) : parse arguments = .ok request := by
  have start : Draft.empty = Draft.of [] [] .awaited := rfl
  have finished := Draft.finish_of specifies
  cases arranges with
  | @grouped before after first last early plain late =>
      obtain ⟨read, lexes, taken⟩ := early.reads
      obtain ⟨more, later, rest⟩ := late.reads
      have listed := ((lexes.append (lexes_plains plain)).append later) []
      simp only [List.append_nil, tokens, Except.map] at listed
      obtain ⟨group, begun, awaited⟩ := Draft.foldl_take_of [] before [] .awaited
      obtain ⟨middle, grown⟩ := Draft.foldl_takePlain_of ([] ++ before) [] request.sources
        group (by rw [awaited rfl]; decide)
      obtain ⟨final, ended, -⟩ :=
        Draft.foldl_take_of ([] ++ before) after ([] ++ request.sources) middle
      have consumed := rest (Draft.of ([] ++ before) ([] ++ request.sources) middle) []
      rw [List.append_nil, ended] at consumed
      rw [parse, listed]
      dsimp only
      rw [List.append_assoc, taken, start, begun, consume_plains, grown, consumed]
      exact finished final
  | divided writes =>
      obtain ⟨read, lexes, taken⟩ := writes.reads
      have listed := lexes ("--" :: request.sources)
      rw [tokens_divider] at listed
      obtain ⟨group, begun, awaited⟩ := Draft.foldl_take_of [] items [] .awaited
      obtain ⟨final, grown⟩ := Draft.foldl_takePlain_of ([] ++ items) [] request.sources
        .present (by decide)
      have plains := consume_plains (Draft.of ([] ++ items) [] .present) request.sources []
      rw [List.append_nil, grown] at plains
      have divided : (Draft.of ([] ++ items) [] group).takeDivider =
          Draft.of ([] ++ items) [] .present := by
        rw [awaited rfl]
        rfl
      rw [parse, listed]
      simp only [Except.map]
      rw [taken, start, begun, consume, divided, plains]
      exact finished final

/-- Sources between flags of both forms, with values that look like flags and like pairs. -/
theorem parse_of_arranges_interleaved :
    parse ["--protoc=/p q", "-vv", "--option", "a=b", "x.proto", "y z.proto", "--import=--import=m",
        "--importpath", "", "--option=-o", "--verbose", "--plugin", "g", "--out_path=out"] =
      .ok ⟨"/p q", "out", "g", "", ["a=b", "-o"], [], [], [], ["--import=m"], [], none, none, 3,
        ["x.proto", "y z.proto"]⟩ := by
  have compiler := @Writes.attached ⟨"--protoc", .compiler⟩ "/p q" (by decide) rfl (by decide)
  have option := @Writes.apart ⟨"--option", .option⟩ "a=b" (by decide) rfl (by decide)
  have imports := @Writes.attached ⟨"--import", .importItem⟩ "--import=m" (by decide) rfl
    (by decide)
  have importpath := @Writes.apart ⟨"--importpath", .importpath⟩ "" (by decide) rfl (by decide)
  have later := @Writes.attached ⟨"--option", .option⟩ "-o" (by decide) rfl (by decide)
  have plugin := @Writes.apart ⟨"--plugin", .plugin⟩ "g" (by decide) rfl (by decide)
  have out := @Writes.attached ⟨"--out_path", .outPath⟩ "out" (by decide) rfl (by decide)
  have before := WritesAll.cons compiler (.cons (.letters 1) (.cons option .nil))
  have after := WritesAll.cons imports (.cons importpath (.cons later (.cons .word
    (.cons plugin (.cons out .nil)))))
  have specifies : Specifies ([.valued .compiler "/p q", .louder 2, .valued .option "a=b"] ++
      [.valued .importItem "--import=m", .valued .importpath "", .valued .option "-o", .louder 1,
        .valued .plugin "g", .valued .outPath "out"])
      ⟨"/p q", "out", "g", "", ["a=b", "-o"], [], [], [], ["--import=m"], [], none, none, 3,
        ["x.proto", "y z.proto"]⟩ :=
    ⟨rfl, rfl, rfl, Or.inl rfl, rfl, rfl, rfl, rfl, rfl, rfl, rfl, rfl, rfl⟩
  exact parse_of_arranges specifies (.grouped before (by decide) after)

end Emplace.CommandLine
