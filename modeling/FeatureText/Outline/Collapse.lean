import FeatureText.Outline.Basic

/-! Collapsed nodes. The lines between the brackets of a collapsed node are hidden; the lines of the
brackets stay. -/
namespace FeatureText

namespace Outline

def isCollapsed (o : Outline) (id : NodeId) : Bool := o.collapsed.contains id

/-- Nodes that are kept for later count. -/
def collapsedCount (o : Outline) : Nat := o.collapsed.length

def collapse (o : Outline) (id : NodeId) : Outline × Bool :=
  if (o.node? id).isSome && !o.isCollapsed id then
    ({ o with collapsed := id :: o.collapsed }, true)
  else (o, false)

def expand (o : Outline) (id : NodeId) : Outline × Bool :=
  ({ o with collapsed := o.collapsed.filter (· != id) }, o.isCollapsed id)

def toggle (o : Outline) (id : NodeId) : Outline × Bool :=
  if (o.node? id).isSome then
    (if o.isCollapsed id then (o.expand id).1 else (o.collapse id).1, true)
  else (o, false)

def collapseAll (o : Outline) : Outline :=
  o.nodes.foldl (fun o n => (o.collapse n.id).1) o

def expandAll (o : Outline) : Outline := { o with collapsed := [] }

def expandEach (o : Outline) (ids : List NodeId) : Outline :=
  { o with collapsed := o.collapsed.filter (!ids.contains ·) }

def collapsedNodes (o : Outline) : List Node := o.nodes.filter (o.isCollapsed ·.id)

def isLineHidden (o : Outline) (line : Nat) : Bool := o.collapsedNodes.any (·.hidesLine line)

/-- The outermost collapsed node that hides a line. -/
def hidingNode? (o : Outline) (line : Nat) : Option Node :=
  o.collapsedNodes.find? (·.hidesLine line)

def collapsedFrom? (o : Outline) (line : Nat) : Option Node :=
  o.collapsedNodes.find? (·.start.line == line)

def collapsedTo? (o : Outline) (line : Nat) : Option Node :=
  o.collapsedNodes.find? (·.stop.line == line)

/-- The nodes with one of the keys that stand in no other node with one of them. -/
def outermost (o : Outline) (keys : List Text) : List Node :=
  o.nodes.filter fun n =>
    keys.contains n.key &&
      !o.nodes.any fun other => keys.contains other.key && isAncestor other.id n

def collapseEach (o : Outline) : List NodeId → Outline × Nat
  | [] => (o, 0)
  | id :: ids =>
    let (o, fresh) := o.collapse id
    let (o, count) := o.collapseEach ids
    (o, if fresh then count + 1 else count)

def collapseOutermost (o : Outline) (keys : List Text) : Outline × Nat :=
  o.collapseEach ((o.outermost keys).map Node.id)

def collapseWithin (o : Outline) (keys : List Text) (first last : Nat) : Outline × Nat :=
  let inside := (o.outermost keys).filter fun n => first ≤ n.start.line && n.stop.line ≤ last
  o.collapseEach (inside.map Node.id)

end Outline

end FeatureText
