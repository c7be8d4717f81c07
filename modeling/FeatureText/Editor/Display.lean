import FeatureText.Editor.State
import FeatureText.View.Window

/-! What is painted: rows of visible lines, and the cursor among them. -/
namespace FeatureText

/-- A place among the rows; the cell counts the width of what stands in front. -/
structure VisiblePosition where
  row : Nat
  column : Nat
  cell : Nat
deriving DecidableEq, Repr

structure Viewport where
  window : Window
  lines : List VisibleLine
  rowCount : Nat
deriving DecidableEq, Repr

namespace Editor

def rowOf? (e : Editor) (line : Nat) : Option Nat := View.rowOf? e.visible line

def visiblePosition? (e : Editor) (p : Position) : Option VisiblePosition :=
  (e.rowOf? p.line).map fun row =>
    ⟨row, p.column, View.displayColumn (e.buffer.lineAt p.line) p.column⟩

def visibleCursor? (e : Editor) : Option VisiblePosition := e.visiblePosition? e.cursor

def visibleSelection? (e : Editor) : Option (VisiblePosition × VisiblePosition) := do
  let s ← e.selection
  return (← e.visiblePosition? s.bounds.1, ← e.visiblePosition? s.bounds.2)

def viewport (e : Editor) (top rowHeight height : Float) : Viewport :=
  let rowCount := e.visible.length
  let window := Window.ofScroll top rowHeight height rowCount e.options.overscan
  ⟨window, (e.visible.drop window.start).take window.size, rowCount⟩

def shownRecord (name : String) (parts : List (String × String)) : String :=
  let shown := parts.map fun (part, value) => if value.isEmpty then part else part ++ ": " ++ value
  name ++ " \x7b " ++ ", ".intercalate shown ++ " \x7d"

def shownPosition (p : Position) : String :=
  shownRecord "Position" [("line", toString p.line), ("column", toString p.column)]

def shownSelection : Option Selection → String
  | some s =>
    let record := shownRecord "Selection"
      [("start", shownPosition s.anchor), ("end", shownPosition s.head)]
    "Some(" ++ record ++ ")"
  | none => "None"

def shown (e : Editor) : String :=
  shownRecord "GeoJsonEditor"
    [("line_count", toString e.buffer.lineCount),
     ("cursor", shownPosition e.cursor),
     ("selection", shownSelection e.selection),
     ("collapsed", toString e.outline.collapsedCount),
     ("hidden_features", toString e.hidden.keys.length),
     ("version", toString e.version.toNat),
     ("..", "")]

end Editor

end FeatureText
