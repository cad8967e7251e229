import Emplace.Request
import Emplace.Text.Digits
import Emplace.Text.Lines
import Emplace.Text.Quoted

/-!
Reading a command line. Every argument is first taken for what it is alone: a flag, which may be
shortened as long as no other begins the same way and may carry its value behind an equals sign; the
divider `--`, after which nothing is a flag; or plain text. Then the flags take their values and the
first group of plain arguments becomes the sources. Errors of the first kind come before all others.
-/
namespace Emplace.CommandLine

inductive Flag where
  | help
  | compiler
  | outPath
  | plugin
  | importpath
  | option
  | descriptorSet
  | includeDir
  | expected
  | importItem
  | leading
  | config
  | report
  | verbose
  deriving DecidableEq, Repr

structure Spelling where
  text : String
  flag : Flag
  deriving DecidableEq, Repr

def spellings : List Spelling := [
  ⟨"-h", .help⟩,
  ⟨"--help", .help⟩,
  ⟨"--protoc", .compiler⟩,
  ⟨"--out_path", .outPath⟩,
  ⟨"--plugin", .plugin⟩,
  ⟨"--importpath", .importpath⟩,
  ⟨"--option", .option⟩,
  ⟨"--descriptor_set", .descriptorSet⟩,
  ⟨"--include", .includeDir⟩,
  ⟨"--expected", .expected⟩,
  ⟨"--import", .importItem⟩,
  ⟨"--prefix-arg", .leading⟩,
  ⟨"--config", .config⟩,
  ⟨"--report", .report⟩,
  ⟨"-v", .verbose⟩,
  ⟨"--verbose", .verbose⟩]

namespace Flag

def takesValue : Flag → Bool
  | help => false
  | verbose => false
  | _ => true

def name (flag : Flag) : String :=
  Text.join "/" ((spellings.filter fun s => s.flag == flag).map Spelling.text)

end Flag

inductive UsageError where
  | ambiguous (argument : String) (candidates : List String)
  | noValue (flag : Flag)
  | strayValue (flag : Flag) (value : String)
  | missing (flags : List Flag)
  | unknown (arguments : List String)
  deriving DecidableEq, Repr

def UsageError.message : UsageError → String
  | .ambiguous argument candidates =>
    "ambiguous option: " ++ argument ++ " could match " ++ Text.join ", " candidates
  | .noValue flag => "argument " ++ flag.name ++ ": expected one argument"
  | .strayValue flag value =>
    "argument " ++ flag.name ++ ": ignored explicit argument " ++ Text.quoted value
  | .missing flags =>
    "the following arguments are required: " ++ Text.join ", " (flags.map Flag.name)
  | .unknown arguments => "unrecognized arguments: " ++ Text.join " " arguments

inductive Ending where
  | help
  | refused (e : UsageError)
  deriving DecidableEq, Repr

inductive Token where
  | flag (spelling : Spelling) (value : Option String)
  /-- It looks like a flag, but there is none of that spelling. -/
  | stranger (text : String)
  | divider
  | plain (text : String)
  deriving DecidableEq, Repr

def spelled? (text : String) : Option Spelling :=
  spellings.find? fun s => s.text == text

/-- A text cut at its first equals sign; the second part is missing where there is none. -/
def cutAtEquals (chars : List Char) : List Char × Option (List Char) :=
  match chars.dropWhile (· ≠ '=') with
  | [] => (chars, none)
  | _ :: value => (chars.takeWhile (· ≠ '='), some value)

/-- The readings of an argument that is no spelling itself: flags that begin with it up to its
equals sign, or, after a single hyphen, a flag of one letter with its value attached. -/
def candidates (chars : List Char) : List (Spelling × Option String) :=
  match chars with
  | '-' :: '-' :: _ =>
    let (start, value) := cutAtEquals chars
    (spellings.filter fun s => start.isPrefixOf s.text.toList).map fun s =>
      (s, value.map String.ofList)
  | _ =>
    (spellings.filter fun s => s.text.toList == chars.take 2).map fun s =>
      (s, some (String.ofList (chars.drop 2)))

def allDigits (chars : List Char) : Bool :=
  chars.all fun c => (Text.scriptDigit? c).isSome

/-- Whether a text without its sign reads as a number: digits, or a point with digits behind it and
perhaps before it. -/
def isPlainNumber (chars : List Char) : Bool :=
  let whole := chars.takeWhile fun c => (Text.scriptDigit? c).isSome
  match chars.dropWhile fun c => (Text.scriptDigit? c).isSome with
  | [] => !whole.isEmpty
  | '.' :: fraction => !fraction.isEmpty && allDigits fraction
  | _ => false

def isNegativeNumber (chars : List Char) : Bool :=
  match Text.withoutFinalFeed chars with
  | '-' :: rest => isPlainNumber rest
  | _ => false

def guess (text : String) : Except UsageError Token :=
  match candidates text.toList with
  | [(spelling, value)] => .ok (.flag spelling value)
  | first :: second :: rest =>
    .error (.ambiguous text ((first :: second :: rest).map fun c => c.1.text))
  | [] =>
    if isNegativeNumber text.toList || text.toList.contains ' ' then .ok (.plain text)
    else .ok (.stranger text)

def classify (text : String) : Except UsageError Token :=
  match text.toList with
  | '-' :: _ :: _ =>
    match spelled? text with
    | some spelling => .ok (.flag spelling none)
    | none =>
      match cutAtEquals text.toList with
      | (start, some value) =>
        match spelled? (String.ofList start) with
        | some spelling => .ok (.flag spelling (some (String.ofList value)))
        | none => guess text
      | (_, none) => guess text
  | _ => .ok (.plain text)

def tokens : List String → Except UsageError (List Token)
  | [] => .ok []
  | text :: rest =>
    if text = "--" then .ok (.divider :: rest.map .plain)
    else match classify text with
      | .error e => .error e
      | .ok token => (tokens rest).map (token :: ·)

inductive SourceGroup where
  | awaited
  | present
  | closed
  deriving DecidableEq, Repr

structure Draft where
  compiler : Option String
  outPath : Option String
  plugin : Option String
  importpath : String
  options : List String
  descriptorSets : List String
  includes : List String
  expected : List String
  imports : List String
  leading : List String
  config : Option String
  report : Option String
  verbosity : Nat
  sources : List String
  group : SourceGroup
  unknown : List String
  deriving DecidableEq, Repr

namespace Draft

def empty : Draft :=
  ⟨none, none, none, "", [], [], [], [], [], [], none, none, 0, [], .awaited, []⟩

def set (draft : Draft) (value : String) : Flag → Draft
  | .help => draft
  | .verbose => draft
  | .compiler => { draft with compiler := some value }
  | .outPath => { draft with outPath := some value }
  | .plugin => { draft with plugin := some value }
  | .importpath => { draft with importpath := value }
  | .option => { draft with options := draft.options ++ [value] }
  | .descriptorSet => { draft with descriptorSets := draft.descriptorSets ++ [value] }
  | .includeDir => { draft with includes := draft.includes ++ [value] }
  | .expected => { draft with expected := draft.expected ++ [value] }
  | .importItem => { draft with imports := draft.imports ++ [value] }
  | .leading => { draft with leading := draft.leading ++ [value] }
  | .config => { draft with config := some value }
  | .report => { draft with report := some value }

def raise (draft : Draft) : Flag → Except Ending Draft
  | .help => .error .help
  | _ => .ok { draft with verbosity := draft.verbosity + 1 }

def raiseAll : Draft → List Flag → Except Ending Draft
  | draft, [] => .ok draft
  | draft, flag :: rest =>
    match draft.raise flag with
    | .error ending => .error ending
    | .ok draft => raiseAll draft rest

def close (draft : Draft) : Draft :=
  match draft.group with
  | .present => { draft with group := .closed }
  | _ => draft

def takePlain (draft : Draft) (text : String) : Draft :=
  match draft.group with
  | .closed => { draft with unknown := draft.unknown ++ [text] }
  | _ => { draft with sources := draft.sources ++ [text], group := .present }

def takeDivider (draft : Draft) : Draft :=
  match draft.group with
  | .closed => { draft with unknown := draft.unknown ++ ["--"] }
  | _ => { draft with group := .present }

def takeStranger (draft : Draft) (text : String) : Draft :=
  { draft with unknown := draft.unknown ++ [text] }

def missing (draft : Draft) : List Flag :=
  (if draft.compiler.isNone then [.compiler] else [])
    ++ (if draft.outPath.isNone then [.outPath] else [])
    ++ (if draft.plugin.isNone then [.plugin] else [])

def finish (draft : Draft) : Except Ending Request :=
  match draft.compiler, draft.outPath, draft.plugin with
  | some compiler, some outPath, some plugin =>
    match draft.unknown with
    | [] => .ok
      { compiler, outPath, plugin,
        importpath := draft.importpath,
        options := draft.options,
        descriptorSets := draft.descriptorSets,
        includes := draft.includes,
        expected := draft.expected,
        imports := draft.imports,
        leading := draft.leading,
        config := draft.config,
        report := draft.report,
        verbosity := draft.verbosity,
        sources := draft.sources }
    | first :: rest => .error (.refused (.unknown (first :: rest)))
  | _, _, _ => .error (.refused (.missing draft.missing))

end Draft

/-- The flags that letters behind a hyphen stand for, after the flag that the first of them is; a
letter that is no flag makes the rest a value that nobody takes. -/
def bundled (flag : Flag) : List Char → Except UsageError (List Flag)
  | [] => .ok [flag]
  | c :: rest =>
    match spelled? (String.ofList ['-', c]) with
    | some spelling => (bundled spelling.flag rest).map (flag :: ·)
    | none => .error (.strayValue flag (String.ofList (c :: rest)))

/-- The flags that one argument stands for when its flag takes no value but has one attached. -/
def unbundle (spelling : Spelling) (value : String) : Except UsageError (List Flag) :=
  match spelling.text.toList, value.toList with
  | ['-', _], c :: rest => bundled spelling.flag (c :: rest)
  | _, _ => .error (.strayValue spelling.flag value)

def consume : Draft → List Token → Except Ending Draft
  | draft, [] => .ok draft
  | draft, .plain text :: rest => consume (draft.takePlain text) rest
  | draft, .divider :: rest => consume draft.takeDivider rest
  | draft, .stranger text :: rest => consume (draft.close.takeStranger text) rest
  | draft, .flag spelling (some value) :: rest =>
    if spelling.flag.takesValue then consume (draft.close.set value spelling.flag) rest
    else match unbundle spelling value with
      | .error e => .error (.refused e)
      | .ok flags =>
        match draft.close.raiseAll flags with
        | .error ending => .error ending
        | .ok draft => consume draft rest
  | draft, .flag spelling none :: .plain value :: rest =>
    if spelling.flag.takesValue then consume (draft.close.set value spelling.flag) rest
    else match draft.close.raise spelling.flag with
      | .error ending => .error ending
      | .ok draft => consume (draft.takePlain value) rest
  | draft, .flag spelling none :: rest =>
    if spelling.flag.takesValue then .error (.refused (.noValue spelling.flag))
    else match draft.close.raise spelling.flag with
      | .error ending => .error ending
      | .ok draft => consume draft rest

def parse (arguments : List String) : Except Ending Request :=
  match tokens arguments with
  | .error e => .error (.refused e)
  | .ok tokens =>
    match consume .empty tokens with
    | .error ending => .error ending
    | .ok draft => draft.finish

end Emplace.CommandLine
