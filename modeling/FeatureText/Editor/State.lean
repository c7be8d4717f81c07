import FeatureText.Editor.Event
import FeatureText.Motion
import FeatureText.Options.Basic
import FeatureText.Text.Buffer
import FeatureText.Time.Schedule
import FeatureText.Time.Timeline
import FeatureText.View.Line

/-! The state of an editor. The buffer and what has been chosen by the user come first, then what is
derived from them and must be brought up to date after each change. -/
namespace FeatureText

abbrev Subscriber := Text

structure Delivery where
  subscriber : Subscriber
  event : Event

structure Editor where
  options : Options
  buffer : Buffer
  cursor : Position
  selection : Option Selection
  outline : Outline
  hidden : HiddenSet
  /-- Where the features stand; none while the brackets do not match. -/
  ranges : List FeatureRange
  metas : List LineMeta
  visible : List VisibleLine
  timeline : Timeline Snapshot
  clock : Clock
  emission : Debouncer
  frames : Frames
  subscribers : List Subscriber
  /-- What was delivered and not collected yet, in order. -/
  outbox : List Delivery
  lastEvent : Option Event
  /-- Counts the changes of the buffer. -/
  version : UInt64

namespace Editor

def refresh (e : Editor) : Editor :=
  let metas := View.lineMetas e.buffer.lines e.outline e.ranges e.hidden
  { e with metas, visible := View.visibleLines e.buffer.lines metas, frames := e.frames.request }

/-- Brings all that is derived from the buffer up to date. Features that are gone are no longer
hidden; while the brackets do not match nothing is known of them. -/
def recompute (e : Editor) : Editor :=
  let outline := (e.outline.rebuild e.buffer.lines).1
  if outline.balanced then
    let ranges := FeatureRange.ofLines e.buffer.lines
    refresh { e with outline, ranges, hidden := e.hidden.prune ranges }
  else refresh { e with outline, ranges := [] }

def snapped (e : Editor) (p : Position) : Position := Motion.snap e.buffer.lines e.outline p

def settle (e : Editor) : Editor :=
  let e := recompute { e with version := e.version + 1 }
  { e with cursor := e.snapped e.cursor, emission := e.emission.schedule e.clock.now }

def snapshot (e : Editor) : Snapshot := ⟨e.buffer.lines, e.cursor, e.clock.now, e.hidden.keys⟩

/-- Keeps the present for undo, in front of an action that changes the buffer. -/
def record (e : Editor) (action : Action) : Editor :=
  { e with timeline := (e.timeline.record action e.clock.now e.snapshot).1 }

def new (options : Options) (clock : Clock) : Editor :=
  recompute
    { options, buffer := .empty, cursor := .origin, selection := none, outline := .empty
      hidden := .empty, ranges := [], metas := [], visible := []
      timeline := .new options.historyLimit options.groupWindow, clock
      emission := .new options.emitDelay, frames := .idle, subscribers := [], outbox := []
      lastEvent := none, version := 0 }

def ofText (options : Options) (clock : Clock) (text : Text) : Editor :=
  recompute { new options clock with buffer := .ofText text }

def advanceClock (e : Editor) (span : Nat) : Editor := { e with clock := e.clock.advance span }

def setClock (e : Editor) (time : Nat) : Editor := { e with clock := e.clock.set time }

end Editor

end FeatureText
