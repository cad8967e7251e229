import Emplace.Yaml.Content

/-!
The value of a document from what its nodes stand for. A node that lies inside itself is tied as a
knot under its number, and so is every container on the way back to it. A node that is met again is
put together once, as long as the containers around it that it refers to are the same.
-/
namespace Emplace.Yaml

/-- A value that was put together, and the containers around it that it refers to. -/
structure Piece where
  value : Value
  outside : List NodeId

namespace Piece

def union (a b : List NodeId) : List NodeId :=
  a ++ b.filter fun id => !a.contains id

def tie (id : NodeId) (content : Value) (outside : List NodeId) : Piece :=
  if outside.isEmpty then ⟨content, []⟩
  else ⟨.knot id content, outside.filter (· ≠ id)⟩

end Piece

abbrev Pieces := List (NodeId × Piece)

namespace Pieces

/-- The pieces once a container is complete: those that refer to it can only be used inside. -/
def close (pieces : Pieces) (id : NodeId) (piece : Piece) (referred : Bool) : Pieces :=
  (id, piece) :: if referred then pieces.filter fun row => !row.2.outside.contains id else pieces

end Pieces

namespace Building

mutual

def assemble (building : Building) :
    Nat → List NodeId → Pieces → NodeId → Pieces × Piece
  | 0, _, pieces, _ => (pieces, ⟨.null, []⟩)
  | fuel + 1, around, pieces, id =>
    if around.contains id then (pieces, ⟨.back id, [id]⟩)
    else match pieces.lookup id with
      | some piece => (pieces, piece)
      | none =>
        let close (pieces : Pieces) (content : Value) (outside : List NodeId) :=
          let piece := Piece.tie id content outside
          (pieces.close id piece (outside.contains id), piece)
        match building.content? id with
        | none => (pieces, ⟨.null, []⟩)
        | some (.leaf value) => (pieces, ⟨value, []⟩)
        | some (.set items) => (pieces, ⟨.set items, []⟩)
        | some (.list items) =>
          let (pieces, items, outside) := assembleAll building fuel (id :: around) pieces items
          close pieces (.list items) outside
        | some (.pairs items) =>
          let (pieces, items, outside) := assemblePairs building fuel (id :: around) pieces items
          close pieces (.list items) outside
        | some (.map entries) =>
          let (pieces, values, outside) :=
            assembleAll building fuel (id :: around) pieces (entries.map (·.2))
          close pieces (.map ((entries.map (·.1)).zip values)) outside

def assembleAll (building : Building) :
    Nat → List NodeId → Pieces → List NodeId → Pieces × List Value × List NodeId
  | 0, _, pieces, _ => (pieces, [], [])
  | _, _, pieces, [] => (pieces, [], [])
  | fuel + 1, around, pieces, id :: rest =>
    let (pieces, first) := assemble building fuel around pieces id
    let (pieces, others, outside) := assembleAll building fuel around pieces rest
    (pieces, first.value :: others, Piece.union first.outside outside)

def assemblePairs (building : Building) :
    Nat → List NodeId → Pieces → List (NodeId × NodeId) → Pieces × List Value × List NodeId
  | 0, _, pieces, _ => (pieces, [], [])
  | _, _, pieces, [] => (pieces, [], [])
  | fuel + 1, around, pieces, (key, value) :: rest =>
    let (pieces, first) := assemble building fuel around pieces key
    let (pieces, second) := assemble building fuel around pieces value
    let (pieces, others, outside) := assemblePairs building fuel around pieces rest
    (pieces, .pair first.value second.value :: others,
      Piece.union (Piece.union first.outside second.outside) outside)

end

end Building

def Document.value (document : Document) : Except Refusal Value :=
  match Building.ofDocument document with
  | .error refusal => .error refusal
  | .ok building =>
    let fuel := building.nodes.extent + building.nodes.size + 2
    .ok (building.assemble fuel [] [] document.root).2.value

end Emplace.Yaml
