import FeatureText.Feature.Hidden
import FeatureText.Outline.Collapse
import FeatureText.Unicode.Width
import FeatureText.View.Inline

/-! What is shown of each line: controls for its values, its node and its feature, and whether it is
shown at all. -/
namespace FeatureText

structure CollapseButton where
  node : NodeId
  key : Text
  collapsed : Bool
deriving DecidableEq, Repr

structure VisibilityButton where
  feature : FeatureKey
  hidden : Bool
deriving DecidableEq, Repr

structure LineMeta where
  colors : List (Inline.Found Text)
  booleans : List (Inline.Found Bool)
  collapse : Option CollapseButton
  visibility : Option VisibilityButton
  isHidden : Bool
  isCollapsed : Bool
  feature : Option FeatureKey
  featureHidden : Bool
deriving DecidableEq, Repr

structure VisibleLine where
  index : Nat
  content : Line
  info : LineMeta
deriving DecidableEq, Repr

namespace View

def collapseButton? (o : Outline) (line : Nat) : Option CollapseButton :=
  (o.nodeAtLine? line).map fun n => ⟨n.id, n.key, o.isCollapsed n.id⟩

/-- Of several features that start on a line the last one has the button. -/
def visibilityButton? (ranges : List FeatureRange) (hidden : HiddenSet) (line : Nat) :
    Option VisibilityButton :=
  (ranges.reverse.find? (·.startLine == line)).map fun r => ⟨r.key, hidden.contains r.key⟩

/-- Of several features on a line the first one owns it. -/
def owner? (ranges : List FeatureRange) (line : Nat) : Option FeatureKey :=
  (ranges.find? (·.containsLine line)).map FeatureRange.key

def lineMeta (o : Outline) (ranges : List FeatureRange) (hidden : HiddenSet) (index : Nat)
    (line : Line) : LineMeta :=
  let button := collapseButton? o index
  let owner := owner? ranges index
  { colors := Inline.colors line
    booleans := Inline.booleans line
    collapse := button
    visibility := visibilityButton? ranges hidden index
    isHidden := o.isLineHidden index
    isCollapsed := button.any CollapseButton.collapsed
    feature := owner
    featureHidden := owner.any hidden.contains }

def lineMetas (lines : List Line) (o : Outline) (ranges : List FeatureRange)
    (hidden : HiddenSet) : List LineMeta :=
  lines.zipIdx.map fun (line, index) => lineMeta o ranges hidden index line

/-- The lines that no collapsed node hides. -/
def visibleLines (lines : List Line) (metas : List LineMeta) : List VisibleLine :=
  ((lines.zip metas).zipIdx.filter fun (entry, _) => !entry.2.isHidden).map
    fun ((content, info), index) => ⟨index, content, info⟩

/-- The row of a line; for a hidden line the row of the last visible line above it. -/
def rowOf? (visible : List VisibleLine) (line : Nat) : Option Nat :=
  match (visible.takeWhile (·.index ≤ line)).length with
  | 0 => none
  | rows + 1 => some rows

def cellCount : Text → Nat
  | [] => 0
  | c :: text => Unicode.cellWidth c + cellCount text

/-- How many cells stand in front of a column. -/
def displayColumn (line : Line) (column : Nat) : Nat := cellCount (line.take column)

end View

end FeatureText
