import FeatureText.Editor.State

/-! What is shown and what is published: collapsing nodes and hiding features. -/
namespace FeatureText

namespace Editor

def refold (e : Editor) (outline : Outline) : Editor :=
  let e := refresh { e with outline }
  { e with
    cursor := e.snapped e.cursor
    selection := e.selection.map fun s => ⟨e.snapped s.anchor, e.snapped s.head⟩ }

def isCollapsed (e : Editor) (id : NodeId) : Bool :=
  (e.outline.node? id).isSome && e.outline.isCollapsed id

def toggleCollapse (e : Editor) (id : NodeId) : Editor × Bool :=
  match e.outline.toggle id with
  | (outline, true) => (e.refold outline, true)
  | (_, false) => (e, false)

def collapseAll (e : Editor) : Editor := e.refold e.outline.collapseAll

def expandAll (e : Editor) : Editor := e.refold e.outline.expandAll

def isReadable (e : Editor) : Bool :=
  match parseFeatures e.buffer.text with
  | .ok _ => true
  | .error _ => false

/-- Collapses the outermost coordinates of a readable document and counts what was not collapsed
before. -/
def collapseCoordinates (e : Editor) : Editor × Nat :=
  if e.isReadable then
    match e.outline.collapseOutermost [Options.coordinatesKey] with
    | (_, 0) => (e, 0)
    | (outline, count) => (e.refold outline, count)
  else (e, 0)

def toggleVisibility (e : Editor) (key : FeatureKey) : Editor × Bool :=
  if e.ranges.any (·.key == key) then
    let e := refresh { e with hidden := (e.hidden.toggle key).1 }
    ({ e with emission := e.emission.schedule e.clock.now }, true)
  else (e, false)

end Editor

end FeatureText
