import FeatureText.Json.Numeral
import FeatureText.Options.Basic

/-! Why a text is refused as options. -/
namespace FeatureText

namespace Options

inductive Expected where
  | size | time | text | list | options
deriving DecidableEq, Repr

def Expected.description : Expected → String
  | size => "usize"
  | time => "u64"
  | text => "a string"
  | list => "a sequence"
  | options => "struct EditorOptions"

inductive Refused where
  | unreadable (cause : Cause)
  | wrongType (found : Text) (expected : Expected)
  | negative (value : Int) (expected : Expected)
  | repeated (field : Field)
deriving DecidableEq

namespace Refused

/-- The text does not hold options, is no JSON, or ends too early. -/
inductive Kind where
  | data | malformed | ended
deriving DecidableEq, Repr

def kind : Refused → Kind
  | unreadable cause => if cause.isEnd then .ended else .malformed
  | _ => .data

def message : Refused → String
  | unreadable cause => cause.message
  | wrongType found expected =>
    s!"invalid type: {String.ofList found}, expected {expected.description}"
  | negative value expected =>
    s!"invalid value: integer `{value}`, expected {expected.description}"
  | repeated field => s!"duplicate field `{field.name}`"

end Refused

def inMarks (kind : String) (value : Text) : Text := kind.toList ++ [' ', '`'] ++ value ++ ['`']

def scalarText : Json → Text
  | .bool true => inMarks "boolean" "true".toList
  | .bool false => inMarks "boolean" "false".toList
  | .number (.integer value) => inMarks "integer" (Number.integer value).text
  | .number (.real value) => inMarks "floating point" (Number.real value).text
  | .text value => "string ".toList ++ Shown.quote value
  | .null => "null".toList
  | .array _ => "sequence".toList
  | .object _ => "map".toList

end Options

end FeatureText
