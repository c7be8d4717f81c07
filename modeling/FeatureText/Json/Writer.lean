import FeatureText.Bracket.Basic
import FeatureText.Json.Numeral
import FeatureText.Json.Quoted

/-! Writing JSON: on one line without blanks, or by lines with an indent. A list of scalars stays on
one line in either form. -/
namespace FeatureText

namespace Json

mutual

def compact : Json → Text
  | .null => ['n', 'u', 'l', 'l']
  | .bool true => ['t', 'r', 'u', 'e']
  | .bool false => ['f', 'a', 'l', 's', 'e']
  | .number value => value.text
  | .text value => Quoted.quote value
  | .array items => '[' :: [','].intercalate (compactItems items) ++ [']']
  | .object members => '{' :: [','].intercalate (compactMembers members) ++ ['}']

def compactItems : List Json → List Text
  | [] => []
  | item :: items => item.compact :: compactItems items

def compactMembers : List (Text × Json) → List Text
  | [] => []
  | (name, value) :: members =>
    (Quoted.quote name ++ ':' :: value.compact) :: compactMembers members

end

def spaces (count : Nat) : Text := List.replicate count ' '

/-- The parts of a container on lines of their own. -/
def block (bracket : Bracket) (indent step : Nat) (parts : List Text) : Text :=
  bracket.opening :: '\n' ::
    [',', '\n'].intercalate (parts.map (spaces (indent + step) ++ ·)) ++
    '\n' :: spaces indent ++ [bracket.closing]

mutual

/-- The value by lines, the first of which is already indented. -/
def format (step indent : Nat) : Json → Text
  | .array items =>
    if items.any isContainer then block .square indent step (formatItems step (indent + step) items)
    else '[' :: [',', ' '].intercalate (items.map compact) ++ [']']
  | .object members =>
    if members.isEmpty then ['{', '}']
    else block .brace indent step (formatMembers step (indent + step) members)
  | value => value.compact

def formatItems (step indent : Nat) : List Json → List Text
  | [] => []
  | item :: items => item.format step indent :: formatItems step indent items

def formatMembers (step indent : Nat) : List (Text × Json) → List Text
  | [] => []
  | (name, value) :: members =>
    (Quoted.quote name ++ ':' :: ' ' :: value.format step indent) ::
      formatMembers step indent members

end

end Json

end FeatureText
