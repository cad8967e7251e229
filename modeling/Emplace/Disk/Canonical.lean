import Emplace.Disk.Calls
import Emplace.Path.Absolute

/-!
The location that a path stands for once links are followed and `..` is worked out. Names that do
not exist are kept as they are. A path that runs into a circle of links is worked out by its text
from there on, and is refused where the operating system still meets the circle in it.

The system's limit on the length of a path holds here for the paths that calls are given, and not
for the way to a link that is met on one of them. Where every link is asked about by its own path, one
whose way has become longer than the limit is not followed; here it is.
-/
namespace Emplace.Disk

/-- The way to a place: names, last name first, from the root or from the current directory. A way
holds no `..` but at its beginning, and there only from the current directory. Two ways to one place
are not the same. -/
structure Trail where
  anchored : Bool
  stack : List String
  deriving DecidableEq, Repr

namespace Trail

def location (cwd : Location) (trail : Trail) : Location :=
  (trail.stack.foldr (fun name stack => Path.pushPiece true stack name)
    (if trail.anchored then [] else cwd.reverse)).reverse

def push (trail : Trail) (piece : String) : Trail :=
  { trail with stack := Path.pushPiece trail.anchored trail.stack piece }

def start (trail : Trail) (path : Path) : Trail :=
  match path.anchor with
  | .here => trail
  | _ => ⟨true, []⟩

/-- Names that are left when a circle is met, put on by text alone; an empty name with more behind
it starts again at the root. -/
def finish (trail : Trail) : List String → Trail
  | "" :: next :: more => (next :: more).foldl push ⟨true, []⟩
  | names => names.foldl push trail

end Trail

structure Settled where
  trail : Trail
  straight : Bool

/-- Follows names, with `follow` for the links: it gets the trail to the directory of the link, the
one to the link itself and its target. -/
def settleNames (disk : Disk) (follow : Trail → Trail → String → Settled) :
    Trail → List String → Except Fault Settled
  | trail, [] => .ok ⟨trail, true⟩
  | trail, name :: rest =>
    if ["", ".", ".."].contains name then settleNames disk follow (trail.push name) rest
    else if name.toList.contains '\x00' then .error .nullByte
    else
      let here := trail.push name
      match disk.get? (here.location disk.cwd) with
      | some (.link target) =>
        let found := follow trail here target
        if found.straight then settleNames disk follow found.trail rest
        -- Behind a circle nothing is looked up any more.
        else .ok ⟨found.trail.finish rest, false⟩
      | _ => settleNames disk follow here rest

/-- Follows the target of a link at `here` in the directory `dir`; the links that are being followed
are in `followed`. -/
def settleLink (disk : Disk) : Nat → List Trail → Trail → Trail → String → Settled
  | 0, _, _, here, _ => ⟨here, false⟩
  | depth + 1, followed, dir, here, target =>
    -- A link that is met again on the same trail closes a circle.
    if followed.contains here then ⟨here, false⟩
    else
      match settleNames disk (settleLink disk depth (here :: followed))
          (dir.start (Path.raw target)) (Text.split '/' target) with
      | .ok found => found
      | .error _ => ⟨here, false⟩

def links (disk : Disk) : List Location :=
  (disk.entries.map (·.1)).filter fun loc => disk.get? loc matches some (.link _)

/-- The number of links that can be inside each other before one of them comes again: each can be
met on a trail from the root and on those that begin with some `..`. -/
def linkDepth (disk : Disk) : Nat := (disk.links.length + 1) * (disk.cwd.length + 3)

def settle (disk : Disk) (path : Path) : Except Fault Settled :=
  settleNames disk (settleLink disk disk.linkDepth []) (Trail.start ⟨false, []⟩ path) path.names

def pathOf (loc : Location) : Path := ⟨.root, loc⟩

def canonical (disk : Disk) (path : Path) : Except Fault Location :=
  match disk.settle path with
  | .error fault => .error fault
  | .ok found =>
    let path := pathOf (found.trail.location disk.cwd)
    if hasNull path then .error .nullByte
    else match disk.status path with
      | .error .tooManyLinks => .error (.linkLoop path.text)
      | _ => .ok path.names

end Emplace.Disk
