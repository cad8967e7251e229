import Emplace.Value

/-!
The order in which a set of numbers is shown. A set keeps its members in a table whose size is a
power of two; each is placed by its hash, and the set is shown from the first place to the last.
Equal numbers have one hash, whatever their kind.
-/
namespace Emplace.Value

def hashModulus : Nat := 2305843009213693951

def infinityHash : Nat := 314159

/-- A hash with a sign, as a number of sixty-four bits; minus one stands for a failure and is never
a hash. -/
def signedHash (negative : Bool) (n : Nat) : Nat :=
  if !negative ∨ n = 0 then n
  else Number.twoTo 64 - (if n = 1 then 2 else n)

/-- The hash of a number; other values have no hash that is always the same. -/
def hash? : Value → Option Nat
  | int i => some (signedHash (i < 0) (i.natAbs % hashModulus))
  | bool b => some (if b then 1 else 0)
  | float (.finite negative mantissa exponent) =>
    some (signedHash negative
      (mantissa * Number.twoTo (exponent.emod 61).toNat % hashModulus))
  | float (.infinite negative) => some (signedHash negative infinityHash)
  | _ => none

def rowLength : Nat := 9

/-- The places that are tried in turn, from a first one on: as far as the table allows it some in a
row, then a jump that the rest of the hash leads. -/
def trials (mask : Nat) : Nat → Nat → Nat → List Nat
  | 0, _, _ => []
  | fuel + 1, place, rest =>
    let row := if place + rowLength ≤ mask then rowLength else 0
    let rest := rest / 32
    (List.range (row + 1)).map (place + ·)
      ++ trials mask fuel ((place * 5 + 1 + rest) % (mask + 1)) rest

def tableSize (count : Nat) : Nat :=
  if count < 5 then 8 else Number.twoTo (max 3 ((2 * count).log2 + 1))

def freePlace (mask : Nat) (taken : List Nat) (hash : Nat) : Nat :=
  ((trials mask (mask + 16) (hash % (mask + 1)) hash).find? fun place =>
    !taken.contains place).getD 0

def placed (mask : Nat) : List (Nat × Value) → List (Nat × Value) → List (Nat × Value)
  | found, [] => found
  | found, (hash, member) :: rest =>
    placed mask ((freePlace mask (found.map Prod.fst) hash, member) :: found) rest

def inPlace (members : List Value) : List Value :=
  match members.mapM fun member => member.hash?.map fun hash => (hash, member) with
  -- Without a hash that is always the same no order is known.
  | none => members
  | some hashed =>
    ((placed (tableSize members.length - 1) [] hashed).mergeSort fun a b => a.1 ≤ b.1).map Prod.snd

end Emplace.Value
