import Emplace.Value.Placement
import Emplace.Yaml.Scalar

/-!
What the containers of a document hold. A container exists before it is filled, so that it can lie
inside itself; containers are filled in the order in which they are met, level by level, and the
first failure on this way counts. Before a mapping is filled, the entries that it takes over from
others through merge keys are put in front of its own; the mappings stay changed.
-/
namespace Emplace.Yaml

inductive Content where
  | leaf (value : Value)
  | list (items : List NodeId)
  | pairs (items : List (NodeId × NodeId))
  | set (items : List Value)
  | map (entries : List (Value × NodeId))

namespace Content

def empty? : Tag → Option Content
  | .list => some (.list [])
  | .orderedMap => some (.pairs [])
  | .pairs => some (.pairs [])
  | .set => some (.set [])
  | .map => some (.map [])
  | _ => none

end Content

structure Building where
  nodes : Nodes
  made : Array (Option Content)
  /-- The containers to be filled that were met last, last first. -/
  met : List NodeId

namespace Building

def start (document : Document) : Building :=
  ⟨document.nodes, Array.replicate document.nodes.size none, []⟩

def content? (building : Building) (id : NodeId) : Option Content :=
  building.made.getD id none

def note (building : Building) (id : NodeId) (content : Content) : Building :=
  { building with made := building.made.setIfInBounds id (some content) }

def bad {α : Type} (what : String) : Except Refusal α :=
  .error (.problem (.badValue what))

def unmarked (nodes : Nodes) (entry : NodeId × NodeId) : Nodes :=
  let key := nodes.node entry.1
  if key.tag == .default then nodes.put entry.1 (key.retag .text) else nodes

mutual

def flatten : Nat → Nodes → NodeId → Except Refusal Nodes
  | 0, _, _ => .error (.fault .tooDeep)
  | fuel + 1, nodes, id => do
    let (nodes, taken) ← takeMerged fuel nodes id
    let own := nodes.entries id
    let nodes := own.foldl unmarked nodes
    .ok (nodes.put id (.map (nodes.node id).tag (taken ++ own)))

/-- Takes the merge keys of a mapping away from it; gives the entries that they stand for. -/
def takeMerged : Nat → Nodes → NodeId → Except Refusal (Nodes × List (NodeId × NodeId))
  | 0, _, _ => .error (.fault .tooDeep)
  | fuel + 1, nodes, id => do
    let entries := nodes.entries id
    let isMerge (entry : NodeId × NodeId) : Bool := (nodes.node entry.1).tag == .merge
    match entries.find? isMerge with
    | none => .ok (nodes, [])
    | some (_, source) =>
      let left := entries.eraseP isMerge
      let (nodes, first) ← takenFrom fuel (nodes.put id (.map (nodes.node id).tag left)) source
      let (nodes, others) ← takeMerged fuel nodes id
      .ok (nodes, first ++ others)

/-- The entries that the value of a merge key stands for: those of a mapping, or those of several,
of which the last come first. -/
def takenFrom : Nat → Nodes → NodeId → Except Refusal (Nodes × List (NodeId × NodeId))
  | 0, _, _ => .error (.fault .tooDeep)
  | fuel + 1, nodes, id => do
    match nodes.node id with
    | .map _ _ =>
      let nodes ← flatten fuel nodes id
      .ok (nodes, nodes.entries id)
    | .list _ items => takenFromAll fuel nodes items
    | .scalar _ _ => bad "expected a mapping or list of mappings for merging"

/-- The entries of several mappings; those of the last come first. -/
def takenFromAll : Nat → Nodes → List NodeId → Except Refusal (Nodes × List (NodeId × NodeId))
  | 0, _, _ => .error (.fault .tooDeep)
  | _, nodes, [] => .ok (nodes, [])
  | fuel + 1, nodes, id :: rest => do
    match nodes.node id with
    | .map _ _ =>
      let nodes ← flatten fuel nodes id
      let first := nodes.entries id
      let (nodes, others) ← takenFromAll fuel nodes rest
      .ok (nodes, others ++ first)
    | _ => bad "expected a mapping for merging"

end

/-- What a node stands for; a container that is met for the first time is empty and waits to be
filled. -/
def meet (building : Building) (id : NodeId) : Except Refusal (Building × Content) :=
  match building.content? id with
  | some content => .ok (building, content)
  | none =>
    match Content.empty? (building.nodes.node id).tag with
    | some content =>
      .ok ({ building.note id content with met := id :: building.met }, content)
    | none =>
      match Scalar.valueOf building.nodes id with
      | .error refusal => .error refusal
      | .ok value => .ok (building.note id (.leaf value), .leaf value)

def meetAll : Building → List NodeId → Except Refusal Building
  | building, [] => .ok building
  | building, id :: rest =>
    match building.meet id with
    | .error refusal => .error refusal
    | .ok (building, _) => meetAll building rest

def meetKey (building : Building) (id : NodeId) : Except Refusal (Building × Value) :=
  match building.meet id with
  | .error refusal => .error refusal
  | .ok (building, .leaf value) => .ok (building, value)
  | .ok _ => bad "found unhashable key"

/-- The keys of entries with the nodes under them: the later of two with one key counts, in the
place of the first. -/
def meetEntries : Building → List (Value × NodeId) → List (NodeId × NodeId) →
    Except Refusal (Building × List (Value × NodeId))
  | building, found, [] => .ok (building, found)
  | building, found, (key, value) :: rest =>
    match building.meetKey key with
    | .error refusal => .error refusal
    | .ok (building, key) =>
      match building.meet value with
      | .error refusal => .error refusal
      | .ok (building, _) => meetEntries building (Value.put key value found) rest

def meetPairs : Building → List NodeId → Except Refusal (Building × List (NodeId × NodeId))
  | building, [] => .ok (building, [])
  | building, id :: rest =>
    match building.nodes.node id with
    | .map _ [(key, value)] =>
      match building.meetAll [key, value] with
      | .error refusal => .error refusal
      | .ok building => (meetPairs building rest).map fun (building, others) =>
          (building, (key, value) :: others)
    | .map _ _ => bad "expected a single mapping item"
    | _ => bad "expected a mapping of length 1"

def mapping (building : Building) (id : NodeId) :
    Except Refusal (Building × List (Value × NodeId)) :=
  match building.nodes.node id with
  | .map _ _ =>
    match flatten (4 * building.nodes.extent + 4) building.nodes id with
    | .error refusal => .error refusal
    | .ok nodes => { building with nodes }.meetEntries [] (nodes.entries id)
  | other => bad ("expected a mapping node, but found " ++ other.kind)

def items (building : Building) (id : NodeId) : Except Refusal (List NodeId) :=
  match building.nodes.node id with
  | .list _ items => .ok items
  | other => bad ("expected a sequence node, but found " ++ other.kind)

def fill (building : Building) (id : NodeId) : Except Refusal Building := do
  match (building.nodes.node id).tag with
  | .map =>
    let (building, entries) ← building.mapping id
    .ok (building.note id (.map entries))
  | .set =>
    let (building, entries) ← building.mapping id
    .ok (building.note id (.set (Value.inPlace (entries.map (·.1)))))
  | .list =>
    let items ← building.items id
    let building ← building.meetAll items
    .ok (building.note id (.list items))
  | _ =>
    let items ← building.items id
    let (building, pairs) ← building.meetPairs items
    .ok (building.note id (.pairs pairs))

def fillAll : Nat → Building → List NodeId → Except Refusal Building
  | 0, building, _ => .ok building
  | fuel + 1, building, [] =>
    match building.met.reverse with
    | [] => .ok building
    | waiting => fillAll fuel { building with met := [] } waiting
  | fuel + 1, building, id :: waiting =>
    match building.fill id with
    | .error refusal => .error refusal
    | .ok building => fillAll fuel building waiting

def ofDocument (document : Document) : Except Refusal Building :=
  match (start document).meet document.root with
  | .error refusal => .error refusal
  -- Each container is filled once, and each level takes one more step.
  | .ok (building, _) => fillAll (2 * document.nodes.size + 2) building []

end Building
end Emplace.Yaml
