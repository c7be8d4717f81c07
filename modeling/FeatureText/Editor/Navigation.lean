import FeatureText.Editor.State
import FeatureText.Text.Cluster

/-! Moving the cursor and selecting. -/
namespace FeatureText

namespace Editor

def setCursor (e : Editor) (p : Position) : Editor :=
  { e with cursor := e.snapped p, selection := none, frames := e.frames.request }

def select (e : Editor) (anchor head : Position) : Editor :=
  let anchor := e.buffer.clamp anchor
  let head := e.buffer.clamp head
  { e with
    cursor := head, selection := Selection.between anchor head, frames := e.frames.request }

def selectAll (e : Editor) : Editor :=
  let stop := e.buffer.stop
  { e with
    cursor := stop, selection := some ⟨.origin, stop⟩, frames := e.frames.request }

/-- Moves the cursor. A selection either ends or follows it. -/
def moveTo (e : Editor) (target : Position) (extend : Bool) : Editor :=
  let anchor := (e.selection.map Selection.anchor).getD e.cursor
  { e with
    cursor := target
    selection := if extend then Selection.between anchor target else none
    frames := e.frames.request }

/-- The end of the selected text that lies in the direction of a plain arrow. -/
def edgeOfSelection? (e : Editor) (m : Motion.Modifiers) (key : Motion.Arrow) :
    Option Position :=
  match e.selection, key with
  | some s, .left => if m.isPlain && !s.isEmpty then some s.bounds.1 else none
  | some s, .right => if m.isPlain && !s.isEmpty then some s.bounds.2 else none
  | _, _ => none

def arrow (e : Editor) (m : Motion.Modifiers) (key : Motion.Arrow) : Editor :=
  match e.edgeOfSelection? m key with
  | some target => e.moveTo target false
  | none => e.moveTo (Motion.arrow clusters e.buffer.lines e.outline e.cursor m key) m.shift

def edge (e : Editor) (m : Motion.Modifiers) (key : Motion.Edge) : Editor :=
  e.moveTo (Motion.edge e.buffer.lines e.cursor m key) m.shift

end Editor

end FeatureText
