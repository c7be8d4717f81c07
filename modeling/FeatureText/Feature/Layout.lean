import FeatureText.Json.Reader
import FeatureText.Json.Writer
import FeatureText.Text.Position

/-! The text of a feature list holds the features without the brackets of the list. It is read with
brackets put on lines of their own around it, and errors are reported in places of the text. -/
namespace FeatureText

/-- Why a feature list cannot be read; the place counts from zero. -/
structure Misreading where
  cause : Cause
  place : Position
deriving DecidableEq, Repr

def located (message : String) (place : Position) : String :=
  s!"{message} at line {place.line + 1} column {place.column + 1}"

def Misreading.message (m : Misreading) : String := located m.cause.message m.place

def enclosed (text : Text) : Text := '[' :: '\n' :: text ++ ['\n', ']']

/-- The line in front of the text does not count, and no place lies behind the last line. -/
def placeIn (text : Text) (offset : Nat) : Position :=
  let place := BytePosition.ofOffset (enclosed text) offset
  ⟨min (place.line - 2) (text.count '\n'), place.column - 1⟩

def parseFeatures (text : Text) : Except Misreading (List Json) :=
  match Json.parse (enclosed text) with
  | .ok value => .ok (value.items?.getD [])
  | .error refusal => .error ⟨refusal.cause, placeIn text refusal.offset⟩

def formatFeatures (step : Nat) (features : List Json) : Text :=
  [',', '\n'].intercalate (features.map (Json.format step 0))

end FeatureText
