import FeatureText.Bracket.Basic
import FeatureText.Text.Line

/-! What matters for brackets and keys on one line: brackets, string literals, colons and commas.
Nothing is refused: whatever else stands on a line is passed over, and a literal that is not closed
ends with its line. -/
namespace FeatureText

inductive Token where
  | opening (bracket : Bracket) (column : Nat)
  | closing (bracket : Bracket) (column : Nat)
  | quoted (raw : Text) (column : Nat)
  | colon
  | comma
deriving DecidableEq, Repr

namespace Token

inductive Mode where
  | outside
  /-- The characters of the literal so far come last first. -/
  | inside (start : Nat) (raw : Text) (escaped : Bool)
deriving DecidableEq, Repr

def mark? (c : Char) (column : Nat) : Option Token :=
  match Bracket.ofOpening? c, Bracket.ofClosing? c with
  | some bracket, _ => some (.opening bracket column)
  | none, some bracket => some (.closing bracket column)
  | none, none => if c = ':' then some .colon else if c = ',' then some .comma else none

def scan : Mode → Nat → Line → List Token
  | .outside, _, [] => []
  | .inside start raw _, _, [] => [.quoted raw.reverse start]
  | .outside, column, c :: rest =>
    if c = '"' then scan (.inside column [] false) (column + 1) rest
    else
      match mark? c column with
      | some token => token :: scan .outside (column + 1) rest
      | none => scan .outside (column + 1) rest
  | .inside start raw true, column, c :: rest =>
    scan (.inside start (c :: raw) false) (column + 1) rest
  | .inside start raw false, column, c :: rest =>
    if c = '"' then .quoted raw.reverse start :: scan .outside (column + 1) rest
    else scan (.inside start (c :: raw) (c == '\\')) (column + 1) rest

def ofLine (line : Line) : List Token := scan .outside 0 line

/-- The tokens of lines that are numbered from a first number on, each with its line's number. -/
def placedFrom (first : Nat) : List Line → List (Nat × Token)
  | [] => []
  | line :: rest => (ofLine line).map (first, ·) ++ placedFrom (first + 1) rest

def placed (lines : List Line) : List (Nat × Token) := placedFrom 0 lines

def opens (bracket : Bracket) : Token → Bool
  | .opening other _ => other == bracket
  | _ => false

def closes (bracket : Bracket) : Token → Bool
  | .closing other _ => other == bracket
  | _ => false

end Token

end FeatureText
