import FeatureText.Bracket.Token
import FeatureText.Feature.Key
import FeatureText.Json.Reader
import FeatureText.Text.Fragment

/-! Where the features stand in a document: the objects that stand in no other brackets. -/
namespace FeatureText

structure FeatureRange where
  key : FeatureKey
  startLine : Nat
  stopLine : Nat
  index : Nat
deriving DecidableEq, Repr

namespace FeatureRange

def containsLine (r : FeatureRange) (line : Nat) : Bool :=
  r.startLine ≤ line && line ≤ r.stopLine

/-- The brackets of the objects outside of all others, by the number of open brackets only. `start`
is where the object in progress opened. -/
def outerObjects : Nat → Option Position → List (Nat × Token) → Option (List (Position × Position))
  | 0, _, [] => some []
  | _ + 1, _, [] => none
  | depth, start, (line, .opening bracket column) :: rest =>
    let opened := if depth = 0 ∧ bracket = .brace then some ⟨line, column⟩ else start
    outerObjects (depth + 1) opened rest
  | 0, _, (_, .closing _ _) :: _ => none
  | 1, start, (line, .closing _ column) :: rest =>
    (outerObjects 0 none rest).map fun objects =>
      match start with
      | some opened => (opened, ⟨line, column⟩) :: objects
      | none => objects
  | depth + 2, start, (_, .closing _ _) :: rest => outerObjects (depth + 1) start rest
  | depth, start, (_, _) :: rest => outerObjects depth start rest

def textOf (lines : List Line) (start stop : Position) : Text :=
  joinLines (Fragment.after start (Fragment.before ⟨stop.line, stop.column + 1⟩ lines))

def hashOfText (text : Text) : UInt64 :=
  match Json.parse text with
  | .ok feature => Feature.hash feature
  | .error _ => Feature.rawHash text

def ofObjects (lines : List Line) (objects : List (Position × Position)) : List FeatureRange :=
  let keys := Feature.keysAfter [] (objects.map fun o => hashOfText (textOf lines o.1 o.2))
  (keys.zip objects).zipIdx.map fun ((key, o), index) => ⟨key, o.1.line, o.2.line, index⟩

def ofLines (lines : List Line) : List FeatureRange :=
  ofObjects lines ((outerObjects 0 none (Token.placed lines)).getD [])

end FeatureRange

end FeatureText
