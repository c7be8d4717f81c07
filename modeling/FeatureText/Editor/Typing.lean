import FeatureText.Editor.State
import FeatureText.Text.Cluster

/-! Changes by typing. They never fail, whatever the text becomes. -/
namespace FeatureText

namespace Editor

/-- The text from one place to another meets a node: one of its brackets, or a line it hides. -/
def touches (start stop : Position) (n : Node) : Bool :=
  (decide (start ≤ n.start) && decide (n.start < stop)) ||
    (decide (start ≤ n.stop) && decide (n.stop < stop)) ||
    (decide (start.line < n.stop.line) && decide (n.start.line < stop.line))

def expandTouched (o : Outline) (start stop : Position) : Outline :=
  o.expandEach ((o.collapsedNodes.filter (touches start stop)).map Node.id)

def removeBetween (e : Editor) (start stop : Position) : Editor :=
  let buffer := e.buffer.delete start stop
  { e with
    outline := expandTouched e.outline start stop, buffer, cursor := buffer.clamp start
    selection := none }

def removeSelection (e : Editor) : Editor :=
  match e.selection with
  | some s =>
    if s.isEmpty then { e with selection := none }
    else e.removeBetween s.bounds.1 s.bounds.2
  | none => e

def place (e : Editor) (text : Text) : Editor :=
  let (buffer, cursor) := e.buffer.insert e.cursor text
  { e with buffer, cursor }

def insertAs (e : Editor) (action : Action) (text : Text) : Editor :=
  ((e.record action).removeSelection.place text).settle

def insertText (e : Editor) (text : Text) : Editor :=
  if text.isEmpty then e else e.insertAs .insert text

def newline (e : Editor) : Editor := e.insertAs .newline ['\n']

def hasSelectedText (e : Editor) : Bool := e.selection.any fun s => !s.isEmpty

def deleteSelection (e : Editor) : Editor × Bool :=
  if e.hasSelectedText then ((e.record .delete).removeSelection.settle, true)
  else ({ e with selection := none }, false)

/-- The place one cluster in front of the cursor, or at the end of the line before. -/
def placeBefore? (e : Editor) : Option Position :=
  let p := e.cursor
  if 0 < p.column then some ⟨p.line, clusters.previous (e.buffer.lineAt p.line) p.column⟩
  else if 0 < p.line then some ⟨p.line - 1, e.buffer.lineLength (p.line - 1)⟩
  else none

def placeAfter? (e : Editor) : Option Position :=
  let p := e.cursor
  if p.column < e.buffer.lineLength p.line then
    some ⟨p.line, clusters.next (e.buffer.lineAt p.line) p.column⟩
  else if p.line + 1 < e.buffer.lineCount then some ⟨p.line + 1, 0⟩
  else none

def deleteBetween (e : Editor) (start stop : Position) : Editor :=
  ((e.record .delete).removeBetween start stop).settle

def deleteBackward (e : Editor) : Editor :=
  match e.deleteSelection with
  | (e, true) => e
  | (e, false) =>
    match e.placeBefore? with
    | some start => e.deleteBetween start e.cursor
    | none => e

def deleteForward (e : Editor) : Editor :=
  match e.deleteSelection with
  | (e, true) => e
  | (e, false) =>
    match e.placeAfter? with
    | some stop => e.deleteBetween e.cursor stop
    | none => e

end Editor

end FeatureText
