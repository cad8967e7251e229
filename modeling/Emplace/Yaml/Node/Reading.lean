import Emplace.Yaml.Node
import Emplace.Yaml.Shape
import Emplace.Yaml.Token.Stream

/-!
Nodes from tokens. A node may have a tag and an anchor; where a node refers to an anchor, the node
that has it stands. A node has its anchor from its beginning, so that what it holds can refer to it.
What is wrong with the text behind the tokens counts only when the tokens run out, so that errors
come in the order of the text.
-/
namespace Emplace.Yaml

structure Source where
  tokens : List Token
  failure : Refusal
  handles : List (String × String)
  anchors : List (String × NodeId)
  nodes : Nodes

inductive Place where
  | bracket
  | block
  /-- A key or a value of a block, whose items need no further indentation. -/
  | entry
  deriving DecidableEq, Repr

namespace Source

def malformed {α : Type} (what : String) : Except Refusal α :=
  .error (.problem (.badStructure what))

def next (source : Source) : Except Refusal Token :=
  match source.tokens with
  | [] => .error source.failure
  | token :: _ => .ok token

def drop (source : Source) : Source :=
  { source with tokens := source.tokens.tail }

def takeAnchor (source : Source) : Except Refusal (Option String × Source) :=
  match source.next with
  | .error refusal => .error refusal
  | .ok (.anchor name) => .ok (some name, source.drop)
  | .ok _ => .ok (none, source)

def takeTag (source : Source) : Except Refusal (Option TagText × Source) :=
  match source.next with
  | .error refusal => .error refusal
  | .ok (.tag written) => .ok (some written, source.drop)
  | .ok _ => .ok (none, source)

def takeProperties (source : Source) :
    Except Refusal (Option String × Option TagText × Source) := do
  let (anchor, source) ← source.takeAnchor
  let (tag, source) ← source.takeTag
  match anchor, tag with
  | none, some _ =>
    let (anchor, source) ← source.takeAnchor
    .ok (anchor, tag, source)
  | _, _ => .ok (anchor, tag, source)

/-- The full name of a tag; the mark that asks for no tag in particular has none. -/
def tagName (source : Source) : Option TagText → Except Refusal (Option String)
  | none => .ok none
  | some ⟨none, name⟩ => .ok (some name)
  | some ⟨some handle, name⟩ =>
    match source.handles.lookup handle with
    | some start => .ok (some (start ++ name))
    | none => malformed "found undefined tag handle"

/-- Begins a node that may have an anchor: it gets the next number. -/
def begin (source : Source) (anchor : Option String) (node : Node) :
    Except Refusal (NodeId × Source) :=
  let id := source.nodes.size
  match anchor with
  | none => .ok (id, { source with nodes := source.nodes.push node })
  | some name =>
    match source.anchors.lookup name with
    | some _ => .error (.problem (.repeatedAnchor name))
    | none => .ok (id, { source with
        nodes := source.nodes.push node, anchors := (name, id) :: source.anchors })

def add (source : Source) (node : Node) : NodeId × Source :=
  (source.nodes.size, { source with nodes := source.nodes.push node })

def fill (source : Source) (id : NodeId) (node : Node) : Source :=
  { source with nodes := source.nodes.put id node }

def anchored (source : Source) (name : String) : Except Refusal NodeId :=
  match source.anchors.lookup name with
  | some id => .ok id
  | none => .error (.problem (.unknownAlias name))

end Source

namespace Node

def isOpenTag (tag : Option String) : Bool := tag.all (· == "!")

/-- The tag that the shape of a text gives; a text with halves has no shape. -/
def shapeTag : Text.Written → Tag
  | .text s => Shape.tagOf s
  | .broken _ => .text

def scalarTag (tag : Option String) (text : Text.Written) (plain : Bool) : Tag :=
  match tag with
  | none => if plain then shapeTag text else .text
  | some name => if name = "!" then shapeTag text else Tag.ofName name

def groupTag (tag : Option String) (usual : Tag) : Tag :=
  if isOpenTag tag then usual else (tag.map Tag.ofName).getD usual

def depthLimit : Nat := 488

mutual

def read : Nat → Nat → Place → Source → Except Refusal (NodeId × Source)
  | 0, _, _, _ => Source.malformed "expected the node content"
  | fuel + 1, depth, place, source => do
    if depthLimit < depth then .error (.fault .tooDeep)
    else match ← source.next with
    | .alias name =>
      let id ← source.anchored name
      .ok (id, source.drop)
    | _ =>
      let (anchor, written, source) ← source.takeProperties
      let tag ← source.tagName written
      let token ← source.next
      let listTag := groupTag tag .list
      let mapTag := groupTag tag .map
      let emptyScalar : Node := .scalar (scalarTag tag (.text "") true) (.text "")
      match token, place with
      | .item, .entry => do
        let (id, source) ← source.begin anchor (.list listTag [])
        let (items, source) ← bareItems fuel (depth + 1) source
        .ok (id, source.fill id (.list listTag items))
      | .scalar text plain, _ => source.drop.begin anchor (.scalar (scalarTag tag text plain) text)
      | .listStart, _ => do
        let (id, source) ← source.begin anchor (.list listTag [])
        let (items, source) ← listItems fuel (depth + 1) true source.drop
        .ok (id, source.fill id (.list listTag items))
      | .mapStart, _ => do
        let (id, source) ← source.begin anchor (.map mapTag [])
        let (entries, source) ← mapEntries fuel (depth + 1) true source.drop
        .ok (id, source.fill id (.map mapTag entries))
      | token, place =>
        if token = .blockListStart ∧ place ≠ .bracket then do
          let (id, source) ← source.begin anchor (.list listTag [])
          let (items, source) ← blockItems fuel (depth + 1) source.drop
          .ok (id, source.fill id (.list listTag items))
        else if token = .blockMapStart ∧ place ≠ .bracket then do
          let (id, source) ← source.begin anchor (.map mapTag [])
          let (entries, source) ← blockEntries fuel (depth + 1) source.drop
          .ok (id, source.fill id (.map mapTag entries))
        else if anchor.isSome ∨ tag.isSome then source.begin anchor emptyScalar
        else Source.malformed "expected the node content"

def readUnless : Nat → Nat → List Token → Place → Source → Except Refusal (NodeId × Source)
  | 0, _, _, _, _ => Source.malformed "expected the node content"
  | fuel + 1, depth, ends, place, source => do
    let token ← source.next
    if ends.contains token then .ok (source.add nothing) else read fuel depth place source

/-- The node behind a colon, or nothing where there is no colon or one of some tokens comes next. -/
def readValue : Nat → Nat → List Token → Place → Source → Except Refusal (NodeId × Source)
  | 0, _, _, _, _ => Source.malformed "expected the node content"
  | fuel + 1, depth, ends, place, source => do
    match ← source.next with
    | .value => readUnless fuel depth ends place source.drop
    | _ => .ok (source.add nothing)

def bareItems : Nat → Nat → Source → Except Refusal (List NodeId × Source)
  | 0, _, _ => Source.malformed "expected the node content"
  | fuel + 1, depth, source => do
    match ← source.next with
    | .item =>
      let ends := [Token.item, .key, .value, .blockEnd]
      let (first, source) ← readUnless fuel depth ends .block source.drop
      let (rest, source) ← bareItems fuel depth source
      .ok (first :: rest, source)
    | _ => .ok ([], source)

def blockItems : Nat → Nat → Source → Except Refusal (List NodeId × Source)
  | 0, _, _ => Source.malformed "expected the node content"
  | fuel + 1, depth, source => do
    match ← source.next with
    | .item =>
      let (first, source) ← readUnless fuel depth [.item, .blockEnd] .block source.drop
      let (rest, source) ← blockItems fuel depth source
      .ok (first :: rest, source)
    | .blockEnd => .ok ([], source.drop)
    | _ => Source.malformed "expected the end of a list"

def blockEntries : Nat → Nat → Source → Except Refusal (List (NodeId × NodeId) × Source)
  | 0, _, _ => Source.malformed "expected the node content"
  | fuel + 1, depth, source => do
    match ← source.next with
    | .key =>
      let ends := [Token.key, .value, .blockEnd]
      let (key, source) ← readUnless fuel depth ends .entry source.drop
      let (value, source) ← readValue fuel depth ends .entry source
      let (rest, source) ← blockEntries fuel depth source
      .ok ((key, value) :: rest, source)
    | .blockEnd => .ok ([], source.drop)
    | _ => Source.malformed "expected the end of a mapping"

def singleEntry : Nat → Nat → Source → Except Refusal (NodeId × Source)
  | 0, _, _ => Source.malformed "expected the node content"
  | fuel + 1, depth, source => do
    let (id, source) := source.add (.map .map [])
    let (key, source) ← readUnless fuel (depth + 1) [.value, .comma, .listEnd] .bracket source
    let (value, source) ← readValue fuel (depth + 1) [.comma, .listEnd] .bracket source
    .ok (id, source.fill id (.map .map [(key, value)]))

/-- The items of a list between brackets; before all but the first a comma stands. -/
def listItems : Nat → Nat → Bool → Source → Except Refusal (List NodeId × Source)
  | 0, _, _, _ => Source.malformed "expected the node content"
  | fuel + 1, depth, first, source => do
    match ← source.next with
    | .listEnd => .ok ([], source.drop)
    | token =>
      if !first ∧ token ≠ .comma then Source.malformed "expected ',' or ']'"
      else
        let source := if first then source else source.drop
        match ← source.next with
        | .listEnd => .ok ([], source.drop)
        | next =>
          let (item, source) ←
            if next = .key then singleEntry fuel depth source.drop
            else read fuel depth .bracket source
          let (rest, source) ← listItems fuel depth false source
          .ok (item :: rest, source)

def mapEntries : Nat → Nat → Bool → Source → Except Refusal (List (NodeId × NodeId) × Source)
  | 0, _, _, _ => Source.malformed "expected the node content"
  | fuel + 1, depth, first, source => do
    match ← source.next with
    | .mapEnd => .ok ([], source.drop)
    | token =>
      if !first ∧ token ≠ .comma then Source.malformed "expected ',' or '\x7d'"
      else
        let source := if first then source else source.drop
        match ← source.next with
        | .key =>
          let ends := [Token.value, .comma, .mapEnd]
          let (key, source) ← readUnless fuel depth ends .bracket source.drop
          let (value, source) ← readValue fuel depth [.comma, .mapEnd] .bracket source
          let (rest, source) ← mapEntries fuel depth false source
          .ok ((key, value) :: rest, source)
        | .mapEnd => .ok ([], source.drop)
        | _ =>
          let (key, source) ← read fuel depth .bracket source
          let (value, source) := source.add nothing
          let (rest, source) ← mapEntries fuel depth false source
          .ok ((key, value) :: rest, source)

end

end Node

def usualHandles : List (String × String) := [("!", "!"), ("!!", Tag.standard)]

namespace Source

def directives : Nat → Bool → List (String × String) → Source → Except Refusal Source
  | 0, _, _, _ => malformed "expected the start of a document"
  | fuel + 1, versioned, handles, source => do
    match ← source.next with
    | .version major =>
      if versioned then malformed "found duplicate YAML directive"
      else if major ≠ 1 then malformed "found incompatible YAML document"
      else directives fuel true handles source.drop
    | .tagHandle handle start =>
      if (handles.lookup handle).isSome then malformed "duplicate tag handle"
      else directives fuel versioned ((handle, start) :: handles) source.drop
    | .otherDirective => directives fuel versioned handles source.drop
    | _ => .ok { source with handles := handles ++ usualHandles }

def skipEnds : List Token → List Token
  | .documentEnd :: rest => skipEnds rest
  | tokens => tokens

/-- The source behind the start of the next document that begins with a marker, if the text does not
end. -/
def nextDocument (source : Source) : Except Refusal (Option Source) := do
  let source := { source with tokens := skipEnds source.tokens }
  match ← source.next with
  | .textEnd => .ok none
  | _ =>
    let source ← directives (source.tokens.length + 1) false [] source
    match ← source.next with
    | .documentStart => .ok (some source.drop)
    | _ => malformed "expected the start of a document"

def endsDocument : Token → Bool
  | .version _ => true
  | .tagHandle _ _ => true
  | .otherDirective => true
  | .documentStart => true
  | .documentEnd => true
  | .textEnd => true
  | _ => false

def contents (fuel : Nat) (source : Source) : Except Refusal (NodeId × Source) := do
  let token ← source.next
  if endsDocument token then .ok (source.add .nothing) else Node.read fuel 0 .block source

def firstDocument (fuel : Nat) (source : Source) : Except Refusal (Option (NodeId × Source)) := do
  let token ← source.next
  if endsDocument token ∧ token ≠ .documentEnd then
    match ← source.nextDocument with
    | none => .ok none
    | some source => do
      let result ← source.contents fuel
      .ok (some result)
  else do
    let result ← Node.read fuel 0 .block source
    .ok (some result)

def onlyDocument (source : Source) : Except Refusal (Option Document) := do
  match ← source.firstDocument (4 * source.tokens.length + 4) with
  | none => .ok none
  | some (root, source) =>
    match ← source.nextDocument with
    | none => .ok (some ⟨source.nodes, root⟩)
    | some _ => .error (.problem .severalDocuments)

end Source

def documentOf (text : List Char) : Except Refusal (Option Document) :=
  let (tokens, failure) := tokensOf text
  let failure := failure.getD (.problem (.badToken "found unexpected end of stream"))
  Source.onlyDocument ⟨tokens, failure, usualHandles, [], #[]⟩

end Emplace.Yaml
