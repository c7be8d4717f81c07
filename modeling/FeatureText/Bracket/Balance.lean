import FeatureText.Bracket.Token

/-! Which brackets belong together. -/
namespace FeatureText

namespace Bracket

/-- Every bracket is closed by one of its kind, the last opened first. -/
def matched : List Bracket → List Token → Bool
  | stack, [] => stack.isEmpty
  | stack, .opening bracket _ :: rest => matched (bracket :: stack) rest
  | [], .closing _ _ :: _ => false
  | top :: stack, .closing bracket _ :: rest => top == bracket && matched stack rest
  | stack, _ :: rest => matched stack rest

def isBalanced (lines : List Line) : Bool :=
  matched [] (lines.flatMap Token.ofLine)

def count (bracket : Bracket) (line : Line) : Nat × Nat :=
  let tokens := Token.ofLine line
  (tokens.countP (Token.opens bracket), tokens.countP (Token.closes bracket))

def countOf (opening : Char) (line : Line) : Nat × Nat :=
  ((ofOpening? opening).map (count · line)).getD (0, 0)

/-- Counts brackets of one kind from the first that opens until as many have closed. -/
def partnerLine? (bracket : Bracket) : Nat → List (Nat × Token) → Option Nat
  | _, [] => none
  | depth, (line, token) :: rest =>
    if token.opens bracket then partnerLine? bracket (depth + 1) rest
    else if token.closes bracket then
      match depth with
      | 0 => partnerLine? bracket 0 rest
      | 1 => some line
      | depth + 2 => partnerLine? bracket (depth + 1) rest
    else partnerLine? bracket depth rest

def closingLine? (bracket : Bracket) (lines : List Line) (start : Nat) : Option Nat :=
  if (Token.ofLine (lines.getD start [])).any (Token.opens bracket) then
    partnerLine? bracket 0 (Token.placedFrom start (lines.drop start))
  else none

def closingLineOf? (opening : Char) (lines : List Line) (start : Nat) : Option Nat :=
  (ofOpening? opening).bind (closingLine? · lines start)

end Bracket

end FeatureText
