/-!
Tags: what kind of value a node stands for.
-/
namespace Emplace.Yaml

inductive Tag where
  | null
  | bool
  | int
  | float
  | binary
  | timestamp
  | orderedMap
  | pairs
  | set
  | text
  | list
  | map
  /-- The mark of a key whose value is merged into the mapping. -/
  | merge
  /-- The mark of a key whose value stands for the mapping. -/
  | default
  | other (name : String)
  deriving DecidableEq, Repr

namespace Tag

def standard : String := "tag:yaml.org,2002:"

def names : List (String × Tag) := [
  ("null", .null), ("bool", .bool), ("int", .int), ("float", .float), ("binary", .binary),
  ("timestamp", .timestamp), ("omap", .orderedMap), ("pairs", .pairs), ("set", .set),
  ("str", .text), ("seq", .list), ("map", .map), ("merge", .merge), ("value", .default)]

def ofName (name : String) : Tag :=
  (names.find? fun row => standard ++ row.1 == name).map (·.2) |>.getD (.other name)

def name : Tag → String
  | other name => name
  | tag => match names.find? fun row => row.2 == tag with
    | some row => standard ++ row.1
    | none => ""

end Tag
end Emplace.Yaml
