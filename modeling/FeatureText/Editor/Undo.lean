import FeatureText.Editor.State

/-! Walking along the timeline. -/
namespace FeatureText

namespace Editor

def restore (e : Editor) (s : Snapshot) : Editor :=
  settle
    { e with
      buffer := .ofLines s.lines, hidden := .ofKeys s.hidden, cursor := s.cursor
      selection := none }

def travel (e : Editor) : Option (Snapshot × Timeline Snapshot) → Editor × Bool
  | some (entry, timeline) => (restore { e with timeline } entry, true)
  | none => (e, false)

def undo (e : Editor) : Editor × Bool := e.travel (e.timeline.undo e.snapshot)

def redo (e : Editor) : Editor × Bool := e.travel (e.timeline.redo e.snapshot)

def clearHistory (e : Editor) : Editor := { e with timeline := e.timeline.clear }

end Editor

end FeatureText
