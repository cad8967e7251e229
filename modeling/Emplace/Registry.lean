import Emplace.Note
import Emplace.Sorting

/-!
The declared outputs of a run and the produced files that were found for them. A file at a declared
path always counts for it. A file elsewhere counts by its last name, where a single declared path
has that name; a second such file makes the output ambiguous, until a file at the path itself comes.
-/
namespace Emplace

/-- Records by path, and the declared paths by their last names. -/
structure Registry where
  table : List (String × Record)
  index : List (String × List String)
  deriving DecidableEq, Repr

namespace Registry

def empty : Registry := ⟨[], []⟩

def lookup (path : String) : List (String × Record) → Option Record
  | [] => none
  | (key, record) :: rest => if key = path then some record else lookup path rest

def amend (path : String) (change : Record → Record) :
    List (String × Record) → List (String × Record)
  | [] => []
  | (key, record) :: rest =>
    if key = path then (key, change record) :: rest else (key, record) :: amend path change rest

def addName (name path : String) : List (String × List String) → List (String × List String)
  | [] => [(name, [path])]
  | (key, paths) :: rest =>
    if key = name then (key, paths ++ [path]) :: rest else (key, paths) :: addName name path rest

def named (name : String) : List (String × List String) → List String
  | [] => []
  | (key, paths) :: rest => if key = name then paths else named name rest

def record? (registry : Registry) (path : String) : Option Record :=
  lookup path registry.table

def update (registry : Registry) (path : String) (change : Record → Record) : Registry :=
  ⟨amend path change registry.table, registry.index⟩

/-- Takes one declared path in; one that is there already changes nothing. -/
def declareOne (registry : Registry) (path : String) : Registry :=
  match registry.record? path with
  | some _ => registry
  | none =>
    let record := Record.ofPath path true
    ⟨registry.table ++ [(path, record)], addName record.basename path registry.index⟩

def markShared (registry : Registry) : Registry :=
  ⟨registry.table.map fun row =>
      (row.1, { row.2 with unique := (named row.2.basename registry.index).length ≤ 1 }),
    registry.index⟩

def declare (paths : List String) : Registry :=
  (paths.foldl declareOne empty).markShared

def repeated : List String → List String → List String
  | _, [] => []
  | seen, path :: rest =>
    if seen.contains path then path :: repeated seen rest else repeated (path :: seen) rest

def declareNotes (paths : List String) : List Note :=
  (repeated [] paths).map .declaredTwice

/-- The registry with an undeclared path noted, unless it is known. -/
def notice (registry : Registry) (rel : String) : Registry :=
  match registry.record? rel with
  | some _ => registry
  | none => ⟨registry.table ++ [(rel, Record.ofPath rel false)], registry.index⟩

/-- The declared output that a file elsewhere can count for by its last name. -/
def byName? (registry : Registry) (rel : String) : Option Record :=
  match named (Path.ofString rel).basename registry.index with
  | [path] =>
    match registry.record? path with
    | some record => if record.unique then some record else none
    | none => none
  | _ => none

def bindExact (source : Path) (record : Record) : Record :=
  { record with state := .exact, source := some source }

def bindByName (source : Path) (record : Record) : Record :=
  { record with state := .fallback, source := some source }

def unbind (record : Record) : Record :=
  { record with state := .ambiguous, source := none }

def discoverByName (registry : Registry) (rel : String) (source : Path) :
    Registry × Option String :=
  let registry := registry.notice rel
  match registry.byName? rel with
  | none => (registry, none)
  | some target =>
    match target.state with
    | .unmatched => (registry.update target.path (bindByName source), some target.path)
    | .fallback => (registry.update target.path unbind, none)
    | _ => (registry, none)

/-- Takes the file at the relative path `rel` into account. The path of the record that it feeds is
given back. -/
def discover (registry : Registry) (rel : String) (source : Path) : Registry × Option String :=
  match registry.record? rel with
  | some record =>
    if record.expected then (registry.update rel (bindExact source), some rel)
    else registry.discoverByName rel source
  | none => registry.discoverByName rel source

def discoverNotes (registry : Registry) (rel : String) : List Note :=
  match registry.record? rel with
  | some ⟨_, _, true, _, _, _⟩ => []
  | _ =>
    match (registry.notice rel).byName? rel with
    | some ⟨path, _, _, _, .fallback, source⟩ => [.rival rel path source]
    | _ => []

def records (registry : Registry) : List Record :=
  registry.table.map (·.2)

/-- The records of the declared paths, in ascending order of the paths. -/
def expectedRecords (registry : Registry) : List Record :=
  Sorting.sortBy Record.path (registry.records.filter Record.expected)

def discoverAll (registry : Registry) (files : List (String × Path)) : Registry :=
  files.foldl (fun registry file => (registry.discover file.1 file.2).1) registry

end Registry
end Emplace
