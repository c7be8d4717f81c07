import FeatureText.Outline.Tree

/-! The nodes of a document, its objects and lists of several lines. A node is known again by its
key and its place among the nodes of that key, so what is said of it outlives edits elsewhere. While
the brackets do not match there are no nodes, and what was known is kept for later. -/
namespace FeatureText

abbrev NodeId := Nat

def NodeId.label (id : NodeId) : String := s!"node-{id}"

structure Node where
  id : NodeId
  key : Text
  occurrence : Nat
  bracket : Bracket
  start : Position
  stop : Position
  /-- The nodes around this one, innermost first. -/
  ancestors : List NodeId
deriving DecidableEq, Repr

namespace Node

def depth (n : Node) : Nat := n.ancestors.length

def parent? (n : Node) : Option NodeId := n.ancestors.head?

/-- The line lies strictly between the lines of the brackets. -/
def hidesLine (n : Node) (line : Nat) : Bool := n.start.line < line && line < n.stop.line

def containsLine (n : Node) (line : Nat) : Bool := n.start.line ≤ line && line ≤ n.stop.line

def isKnownAs (key : Text) (occurrence : Nat) (n : Node) : Bool :=
  n.key == key && n.occurrence == occurrence

/-- Numbers of nodes are 32 bits wide. -/
def idLimit : Nat := 0x100000000

def ofEntry (id : NodeId) (occurrence : Nat) (ancestors : List NodeId) (e : Entry) : Node :=
  ⟨id, e.span.key, occurrence, e.span.bracket, e.span.start, e.span.stop, ancestors⟩

/-- Nodes for the spans of a document. `path` holds the last node and those around it, `keys` the
keys so far, and `fresh` is the number for the next node that was not known. -/
def ofEntries (known : List Node) (fresh : NodeId) (path : List NodeId) (keys : List Text) :
    List Entry → List Node × NodeId
  | [] => ([], fresh)
  | e :: rest =>
    let occurrence := keys.count e.span.key
    let ancestors := path.drop (path.length - e.depth)
    match known.find? (isKnownAs e.span.key occurrence) with
    | some old =>
      let (nodes, next) := ofEntries known fresh (old.id :: ancestors) (e.span.key :: keys) rest
      (ofEntry old.id occurrence ancestors e :: nodes, next)
    | none =>
      let (nodes, next) := ofEntries known ((fresh + 1) % idLimit) (fresh :: ancestors)
        (e.span.key :: keys) rest
      (ofEntry fresh occurrence ancestors e :: nodes, next)

end Node

structure Outline where
  /-- The nodes when the brackets last matched. -/
  known : List Node
  balanced : Bool
  fresh : NodeId
  collapsed : List NodeId

/-- What a rebuild did: which numbers lost their node, and which are new. -/
structure Rebuilt where
  balanced : Bool
  dropped : List NodeId
  minted : List NodeId
deriving DecidableEq, Repr

namespace Outline

def empty : Outline := ⟨[], true, 0, []⟩

instance : Inhabited Outline := ⟨empty⟩

def nodes (o : Outline) : List Node := if o.balanced then o.known else []

def rebuild (o : Outline) (lines : List Line) : Outline × Rebuilt :=
  match Tree.forest? lines with
  | none => ({ o with balanced := false }, ⟨false, [], []⟩)
  | some forest =>
    let (nodes, fresh) := Node.ofEntries o.known o.fresh [] [] (Tree.entriesOfForest 0 forest)
    let live := nodes.map Node.id
    let minted := nodes.filter fun n => !o.known.any (Node.isKnownAs n.key n.occurrence)
    (⟨nodes, true, fresh, o.collapsed.filter (live.contains ·)⟩,
      ⟨true, (o.known.map Node.id).filter (!live.contains ·), minted.map Node.id⟩)

def node? (o : Outline) (id : NodeId) : Option Node := o.nodes.find? (·.id == id)

def roots (o : Outline) : List Node := o.nodes.filter (·.ancestors.isEmpty)

def nodeAtLine? (o : Outline) (line : Nat) : Option Node :=
  o.nodes.find? (·.start.line == line)

def isAncestor (ancestor : NodeId) (n : Node) : Bool := n.ancestors.contains ancestor

end Outline

end FeatureText
