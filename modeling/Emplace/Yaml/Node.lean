import Emplace.Text.Letters
import Emplace.Yaml.Tag

/-!
Documents as graphs: what the tokens of a text stand for, before a value is made of it. A node that
is referred to again is one node, and may lie inside itself.
-/
namespace Emplace.Yaml

abbrev NodeId := Nat

inductive Node where
  | scalar (tag : Tag) (text : Text.Written)
  | list (tag : Tag) (items : List NodeId)
  | map (tag : Tag) (entries : List (NodeId × NodeId))

namespace Node

def tag : Node → Tag
  | scalar tag _ => tag
  | list tag _ => tag
  | map tag _ => tag

def retag (tag : Tag) : Node → Node
  | scalar _ text => scalar tag text
  | list _ items => list tag items
  | map _ entries => map tag entries

def kind : Node → String
  | scalar _ _ => "scalar"
  | list _ _ => "sequence"
  | map _ _ => "mapping"

def nothing : Node := .scalar .null (.text "")

def size : Node → Nat
  | scalar _ _ => 0
  | list _ items => items.length
  | map _ entries => entries.length

end Node

abbrev Nodes := Array Node

namespace Nodes

/-- The node with a number; a number without one stands for a place where nothing is written. -/
def node (nodes : Nodes) (id : NodeId) : Node := nodes.getD id .nothing

def put (nodes : Nodes) (id : NodeId) (node : Node) : Nodes := nodes.setIfInBounds id node

/-- The entries of a mapping; other nodes have none. -/
def entries (nodes : Nodes) (id : NodeId) : List (NodeId × NodeId) :=
  match nodes.node id with
  | .map _ entries => entries
  | _ => []

def extent (nodes : Nodes) : Nat := nodes.foldl (fun sum node => sum + node.size + 1) 0

end Nodes

structure Document where
  nodes : Nodes
  root : NodeId

end Emplace.Yaml
