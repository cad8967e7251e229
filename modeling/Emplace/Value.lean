import Emplace.Calendar
import Emplace.Number.Double
import Emplace.Text.Letters

/-!
Values of a configuration: what a document of settings can hold. Mappings keep the order in which
their keys came; a key is found by equal value, so that `1`, `1.0` and `true` are one key. A
collection may hold itself: it is tied under a label, and inside it the label stands for it.
-/
namespace Emplace

inductive Value where
  | null
  | bool (b : Bool)
  | int (i : Int)
  /-- A number that is one; what is none has a constructor of its own. -/
  | float (x : Number.Double)
  /-- What is no number equals nothing but itself; the label tells which one it is. -/
  | nan (label : Nat)
  | text (s : String)
  /-- A text with halves of surrogate pairs in it. -/
  | broken (letters : List Text.Letter)
  | bytes (content : List UInt8)
  | date (d : Date)
  | moment (m : Moment)
  | list (items : List Value)
  | pair (first second : Value)
  | set (items : List Value)
  | map (entries : List (Value × Value))
  /-- A collection on a way that leads back to it or to one around it. -/
  | knot (label : Nat) (content : Value)
  /-- The collection around this place that is tied under a label. -/
  | back (label : Nat)
  deriving Inhabited

abbrev Entries := List (Value × Value)

namespace Value

def ofWritten : Text.Written → Value
  | .text s => text s
  | .broken letters => broken letters

def wholeNumber? : Value → Option Int
  | int i => some i
  | bool b => some (if b then 1 else 0)
  | _ => none

/-- Equality of values that can be keys; a value that cannot be a key equals none. -/
def sameKey : Value → Value → Bool
  | null, null => true
  | text a, text b => a == b
  | broken a, broken b => a == b
  | bytes a, bytes b => a == b
  | date a, date b => a == b
  | moment a, moment b => a.same b
  | nan a, nan b => a == b
  | float x, float y => x.sameValue y
  | float x, b => match b.wholeNumber? with
    | some j => x.equalsInt j
    | none => false
  | a, float y => match a.wholeNumber? with
    | some i => y.equalsInt i
    | none => false
  | a, b => match a.wholeNumber?, b.wholeNumber? with
    | some i, some j => i == j
    | _, _ => false

variable {Item : Type}

def find? (key : Value) : List (Value × Item) → Option Item
  | [] => none
  | (k, v) :: rest => if sameKey k key then some v else find? key rest

/-- The entries with `value` under `key`: in the place of an equal key, else at the end. -/
def put (key : Value) (value : Item) : List (Value × Item) → List (Value × Item)
  | [] => [(key, value)]
  | (k, v) :: rest => if sameKey k key then (k, value) :: rest else (k, v) :: put key value rest

mutual

/-- A value with another one in the places that refer to a label outside of it. -/
def fill (label : Nat) (whole : Value) : Value → Value
  | back n => if n = label then whole else back n
  | knot n content => if n = label then knot n content else knot n (fill label whole content)
  | list items => list (fillItems label whole items)
  | pair first second => pair (fill label whole first) (fill label whole second)
  | set items => set (fillItems label whole items)
  | map entries => map (fillEntries label whole entries)
  | value => value

def fillItems (label : Nat) (whole : Value) : List Value → List Value
  | [] => []
  | item :: rest => fill label whole item :: fillItems label whole rest

def fillEntries (label : Nat) (whole : Value) : Entries → Entries
  | [] => []
  | (key, value) :: rest => (key, fill label whole value) :: fillEntries label whole rest

end

/-- A collection without the knot around it: it stands itself where something referred to it. -/
def untied : Value → Value
  | knot label content => fill label (knot label content) content
  | value => value

def entries? (value : Value) : Option Entries :=
  match value.untied with
  | map entries => some entries
  | _ => none

/-- What a value counts as where a condition is asked for: nothing, zero and the empty containers
count as false. -/
def isTrue : Value → Bool
  | null => false
  | bool b => b
  | int i => i != 0
  | float x => !x.isZero
  | nan _ => true
  | text s => s != ""
  | broken _ => true
  | bytes content => !content.isEmpty
  | date _ => true
  | moment _ => true
  | list items => !items.isEmpty
  | pair _ _ => true
  | set items => !items.isEmpty
  | map entries => !entries.isEmpty
  | knot _ content => content.isTrue
  | back _ => true

def kind : Value → String
  | null => "NoneType"
  | bool _ => "bool"
  | int _ => "int"
  | float _ => "float"
  | nan _ => "float"
  | text _ => "str"
  | broken _ => "str"
  | bytes _ => "bytes"
  | date _ => "date"
  | moment _ => "datetime"
  | list _ => "list"
  | pair _ _ => "tuple"
  | set _ => "set"
  | map _ => "dict"
  | knot _ content => content.kind
  | back _ => "list"

theorem entries?_map (entries : Entries) : (map entries).entries? = some entries := rfl

end Value
end Emplace
