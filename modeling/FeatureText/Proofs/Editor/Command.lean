import FeatureText.Editor.Clipboard
import FeatureText.Editor.Control
import FeatureText.Editor.Features
import FeatureText.Editor.Folding
import FeatureText.Editor.Navigation
import FeatureText.Editor.Undo

/-! Runs of an editor. A command is one call with its arguments, and a call that is refused answers
with its error. -/
namespace FeatureText

inductive Command where
  | insertText (text : Text)
  | newline
  | deleteSelection
  | deleteBackward
  | deleteForward
  | cut
  | paste (text : Text)
  | setColor (line index : Nat) (value : Text)
  | flipBoolean (line index : Nat)
  | setCursor (p : Position)
  | select (anchor head : Position)
  | selectAll
  | arrow (m : Motion.Modifiers) (key : Motion.Arrow)
  | edge (m : Motion.Modifiers) (key : Motion.Edge)
  | toggleCollapse (id : NodeId)
  | collapseAll
  | expandAll
  | collapseCoordinates
  | toggleVisibility (key : FeatureKey)
  | undo
  | redo
  | clearHistory
  | set (input : Json) (rule : CollapseRule)
  | add (input : Json) (rule : CollapseRule)
  | insertFeatures (input : Json) (index : Int) (rule : CollapseRule)
  | removeFeature (index : Int) (rule : CollapseRule)
  | removeAll
  | load (text : Text)
  | emit
  | poll
  | subscribe (subscriber : Subscriber)
  | collect
  | takeFrame
  | blockFrames (blocked : Bool)
  | advanceClock (span : Nat)
  | setClock (time : Nat)

inductive Answer where
  | done
  | flag (value : Bool)
  | count (value : Nat)
  | text (value : Text)
  | pasted (value : Pasted)
  | feature (value : Option Json)
  | event (value : Event)
  | deliveries (value : List Delivery)
  | refused (reason : FeatureError)

namespace Editor

def andAnswer {α : Type} (answer : α → Answer) (result : Editor × α) : Editor × Answer :=
  (result.1, answer result.2)

def orRefused {α : Type} (answer : α → Answer) : Except FeatureError α → Answer
  | .ok value => answer value
  | .error reason => .refused reason

def execute (e : Editor) : Command → Editor × Answer
  | .insertText text => (e.insertText text, .done)
  | .newline => (e.newline, .done)
  | .deleteSelection => andAnswer .flag e.deleteSelection
  | .deleteBackward => (e.deleteBackward, .done)
  | .deleteForward => (e.deleteForward, .done)
  | .cut => andAnswer .text e.cut
  | .paste text => andAnswer .pasted (e.paste text)
  | .setColor line index value => andAnswer .flag (e.setColor line index value)
  | .flipBoolean line index => andAnswer .flag (e.flipBoolean line index)
  | .setCursor p => (e.setCursor p, .done)
  | .select anchor head => (e.select anchor head, .done)
  | .selectAll => (e.selectAll, .done)
  | .arrow m key => (e.arrow m key, .done)
  | .edge m key => (e.edge m key, .done)
  | .toggleCollapse id => andAnswer .flag (e.toggleCollapse id)
  | .collapseAll => (e.collapseAll, .done)
  | .expandAll => (e.expandAll, .done)
  | .collapseCoordinates => andAnswer .count e.collapseCoordinates
  | .toggleVisibility key => andAnswer .flag (e.toggleVisibility key)
  | .undo => andAnswer .flag e.undo
  | .redo => andAnswer .flag e.redo
  | .clearHistory => (e.clearHistory, .done)
  | .set input rule => andAnswer (orRefused fun _ => .done) (e.call (set input rule))
  | .add input rule => andAnswer (orRefused fun _ => .done) (e.call (add input rule))
  | .insertFeatures input index rule =>
    andAnswer (orRefused fun _ => .done) (e.call (insertFeatures input index rule))
  | .removeFeature index rule =>
    andAnswer (orRefused .feature) (e.call (removeFeature index rule))
  | .removeAll => (e.removeAll, .done)
  | .load text => andAnswer (orRefused .count) (e.call (load text))
  | .emit => andAnswer .event e.emit
  | .poll => andAnswer .flag e.poll
  | .subscribe subscriber => (e.subscribe subscriber, .done)
  | .collect => andAnswer .deliveries e.collect
  | .takeFrame => andAnswer .flag e.takeFrame
  | .blockFrames blocked => (e.blockFrames blocked, .done)
  | .advanceClock span => (e.advanceClock span, .done)
  | .setClock time => (e.setClock time, .done)

/-- The states that a run of commands from a new editor leads to. -/
inductive Reachable : Editor → Prop where
  | new (options : Options) (clock : Clock) : Reachable (.new options clock)
  | ofText (options : Options) (clock : Clock) (text : Text) :
    Reachable (.ofText options clock text)
  | step {e : Editor} (command : Command) : Reachable e → Reachable (e.execute command).1

end Editor

end FeatureText
