import FeatureText.Text.Position
import FeatureText.Text.Line
import FeatureText.Unicode.Class

/-! Formatting moves white space and nothing else, so a place is carried over by counting the
significant characters before it: everything inside a string literal, quotes included, and outside
whatever is not white space. A literal may run on over line ends here. -/
namespace FeatureText

namespace Significant

inductive Where where
  | outside
  | inside
  | escaped
deriving DecidableEq, Repr

def Where.step : Where → Char → Where
  | .outside, c => if c = '"' then .inside else .outside
  | .inside, c => if c = '\\' then .escaped else if c = '"' then .outside else .inside
  | .escaped, _ => .inside

def Where.counts (place : Where) (c : Char) : Bool :=
  place != .outside || !Unicode.isWhiteSpace c

/-- The places just past the significant characters of one line. -/
def lineMarks (line : Nat) : Where → Nat → Line → List Position
  | _, _, [] => []
  | place, column, c :: rest =>
    let marks := lineMarks line (place.step c) (column + 1) rest
    if place.counts c then ⟨line, column + 1⟩ :: marks else marks

def marksFrom (line : Nat) (place : Where) : List Line → List Position
  | [] => []
  | first :: rest =>
    lineMarks line place 0 first ++ marksFrom (line + 1) (first.foldl Where.step place) rest

def marks (lines : List Line) : List Position := marksFrom 0 .outside lines

/-- How many significant characters stand before a place. -/
def anchor (lines : List Line) (p : Position) : Nat :=
  ((marks lines).takeWhile (· ≤ p)).length

/-- The place just past the given number of significant characters, or the end of the document if
there are not so many. -/
def place (lines : List Line) : Nat → Position
  | 0 => .origin
  | anchor + 1 =>
    (marks lines)[anchor]?.getD
      ⟨lines.length - 1, (lines.getD (lines.length - 1) []).length⟩

end Significant

end FeatureText
