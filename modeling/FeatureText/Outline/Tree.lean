import FeatureText.Bracket.Token
import FeatureText.Text.Position

/-! The nesting of brackets as a forest. A bracket is named by the key in front of it; inside a
list, where there is none, by the name of the bracket around it. -/
namespace FeatureText

def rootKey : Text := "$root".toList

structure Span where
  key : Text
  bracket : Bracket
  start : Position
  stop : Position
deriving DecidableEq, Repr

/-- The brackets stand on different lines. -/
def Span.isTall (s : Span) : Bool := s.start.line < s.stop.line

inductive Tree where
  | node (span : Span) (children : List Tree)

namespace Tree

/-- A bracket that is not closed yet, with the trees beside it that came before, last first. -/
structure Opened where
  key : Text
  bracket : Bracket
  start : Position
  siblings : List Tree

/-- A forest in progress. A literal names the next bracket once a colon has followed it. -/
structure Growth where
  around : List Opened
  grown : List Tree
  literal : Option Text
  name : Option Text

namespace Growth

def seed : Growth := ⟨[], [], none, none⟩

def context (g : Growth) : Text := (g.around.head?.map Opened.key).getD rootKey

def step (g : Growth) (line : Nat) : Token → Option Growth
  | .quoted raw _ => some { g with literal := some raw }
  | .colon => some { g with name := g.literal, literal := none }
  | .comma => some { g with name := none, literal := none }
  | .opening bracket column =>
    let opened := ⟨g.name.getD g.context, bracket, ⟨line, column⟩, g.grown⟩
    some ⟨opened :: g.around, [], none, none⟩
  | .closing bracket column =>
    match g.around with
    | [] => none
    | opened :: around =>
      if opened.bracket = bracket then
        let span := ⟨opened.key, bracket, opened.start, ⟨line, column⟩⟩
        some ⟨around, .node span g.grown.reverse :: opened.siblings, none, none⟩
      else none

def grow (g : Growth) : List (Nat × Token) → Option Growth
  | [] => some g
  | (line, token) :: rest =>
    match g.step line token with
    | some next => next.grow rest
    | none => none

end Growth

/-- The forest of all brackets, if they match. -/
def forest? (lines : List Line) : Option (List Tree) :=
  match Growth.seed.grow (Token.placed lines) with
  | some ⟨[], grown, _, _⟩ => some grown.reverse
  | _ => none

end Tree

structure Entry where
  span : Span
  depth : Nat
deriving DecidableEq, Repr

mutual

def Tree.entries (depth : Nat) : Tree → List Entry
  | .node span children =>
    if span.isTall then ⟨span, depth⟩ :: Tree.entriesOfForest (depth + 1) children
    else Tree.entriesOfForest depth children

def Tree.entriesOfForest (depth : Nat) : List Tree → List Entry
  | [] => []
  | tree :: trees => tree.entries depth ++ Tree.entriesOfForest depth trees

end

end FeatureText
