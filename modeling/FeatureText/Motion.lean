import FeatureText.Outline.Collapse
import FeatureText.Text.Segmentation
import FeatureText.Unicode.Class

/-! Where the keys take the cursor. Motions work on the lines and the outline alone, so that they
serve the cursor and the moving end of a selection alike; to the side they go by the parts into
which lines are cut. A collapsed node is stepped over as if it were one character. -/
namespace FeatureText

namespace Motion

def lineAt (lines : List Line) (index : Nat) : Line := lines.getD index []

def lengthAt (lines : List Line) (index : Nat) : Nat := (lineAt lines index).length

def lastLine (lines : List Line) : Nat := lines.length - 1

def isWordChar (c : Char) : Bool := Unicode.isAlphanumeric c || c == '_'

def lineStart (p : Position) : Position := ⟨p.line, 0⟩

def lineEnd (lines : List Line) (p : Position) : Position := ⟨p.line, lengthAt lines p.line⟩

def documentStart : Position := .origin

def documentEnd (lines : List Line) : Position :=
  ⟨lastLine lines, lengthAt lines (lastLine lines)⟩

def pastEnd (n : Node) : Position := ⟨n.stop.line, n.stop.column + 1⟩

def leftPlain (s : Segmentation) (lines : List Line) (o : Outline) (p : Position) : Position :=
  if 0 < p.column then ⟨p.line, s.previous (lineAt lines p.line) p.column⟩
  else if p.line = 0 then p
  else
    match o.hidingNode? (p.line - 1) with
    | some n => n.start
    | none => ⟨p.line - 1, lengthAt lines (p.line - 1)⟩

def left (s : Segmentation) (lines : List Line) (o : Outline) (p : Position) : Position :=
  match o.collapsedTo? p.line with
  | some n => if p.column ≤ n.stop.column + 1 then n.start else leftPlain s lines o p
  | none => leftPlain s lines o p

def rightPlain (s : Segmentation) (lines : List Line) (o : Outline) (p : Position) : Position :=
  if p.column < lengthAt lines p.line then ⟨p.line, s.next (lineAt lines p.line) p.column⟩
  else if lastLine lines ≤ p.line then p
  else
    match o.hidingNode? (p.line + 1) with
    | some n => ⟨n.stop.line, 0⟩
    | none => ⟨p.line + 1, 0⟩

def right (s : Segmentation) (lines : List Line) (o : Outline) (p : Position) : Position :=
  match o.collapsedFrom? p.line with
  | some n => if n.start.column ≤ p.column then pastEnd n else rightPlain s lines o p
  | none => rightPlain s lines o p

def up (lines : List Line) (o : Outline) (p : Position) : Position :=
  if p.line = 0 then .origin
  else
    let target := ((o.hidingNode? (p.line - 1)).map (·.start.line)).getD (p.line - 1)
    ⟨target, min p.column (lengthAt lines target)⟩

def down (lines : List Line) (o : Outline) (p : Position) : Position :=
  if lastLine lines ≤ p.line then documentEnd lines
  else
    let target := ((o.hidingNode? (p.line + 1)).map (·.stop.line)).getD (p.line + 1)
    ⟨target, min p.column (lengthAt lines target)⟩

def wordReach (text : Line) : Nat :=
  let gap := text.takeWhile fun c => !isWordChar c
  gap.length + ((text.drop gap.length).takeWhile isWordChar).length

/-- To the end of the word at the cursor or of the next one. -/
def wordRight (s : Segmentation) (lines : List Line) (o : Outline) (p : Position) : Position :=
  if lengthAt lines p.line ≤ p.column then right s lines o p
  else
    let column := p.column + wordReach ((lineAt lines p.line).drop p.column)
    match o.collapsedFrom? p.line with
    | some n => if n.start.column < column then pastEnd n else ⟨p.line, column⟩
    | none => ⟨p.line, column⟩

/-- To the start of the word in front of the cursor. -/
def wordLeft (s : Segmentation) (lines : List Line) (o : Outline) (p : Position) : Position :=
  if p.column = 0 then left s lines o p
  else
    let head := (lineAt lines p.line).take p.column
    let column := head.length - wordReach head.reverse
    match o.collapsedTo? p.line with
    | some n => if column ≤ n.stop.column then n.start else ⟨p.line, column⟩
    | none => ⟨p.line, column⟩

/-- Into the buffer, and out of what is hidden. -/
def snap (lines : List Line) (o : Outline) (p : Position) : Position :=
  let line := min p.line (lastLine lines)
  match o.hidingNode? line with
  | some n => n.start
  | none => ⟨line, min p.column (lengthAt lines line)⟩

inductive Arrow where
  | left | right | up | down
deriving DecidableEq, Repr

inductive Edge where
  | start | stop
deriving DecidableEq, Repr

structure Modifiers where
  shift : Bool
  word : Bool
  document : Bool
deriving DecidableEq, Repr

def Modifiers.isPlain (m : Modifiers) : Bool := !m.shift && !m.word && !m.document

def arrow (s : Segmentation) (lines : List Line) (o : Outline) (p : Position) (m : Modifiers) :
    Arrow → Position
  | .left => if m.word then wordLeft s lines o p else left s lines o p
  | .right => if m.word then wordRight s lines o p else right s lines o p
  | .up => if m.document then documentStart else up lines o p
  | .down => if m.document then documentEnd lines else down lines o p

def edge (lines : List Line) (p : Position) (m : Modifiers) : Edge → Position
  | .start => if m.document then documentStart else lineStart p
  | .stop => if m.document then documentEnd lines else lineEnd lines p

end Motion

end FeatureText
