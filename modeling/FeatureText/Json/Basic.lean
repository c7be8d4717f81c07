import FeatureText.Text.Line

/-! JSON values. An object is a list of members, each name at most once, in the order in which the
names first came. -/
namespace FeatureText

/-- Whole numbers keep their value; all others are floats. -/
inductive Number where
  | integer (value : Int)
  | real (value : Float)
deriving DecidableEq

inductive Json where
  | null
  | bool (value : Bool)
  | number (value : Number)
  | text (value : Text)
  | array (items : List Json)
  | object (members : List (Text × Json))
deriving Inhabited

def Number.same : Number → Number → Bool
  | .integer a, .integer b => a == b
  | .real a, .real b => a == b
  | _, _ => false

/-- A name that is there keeps its place and takes the new value. -/
def putMember (name : Text) (value : Json) : List (Text × Json) → List (Text × Json)
  | [] => [(name, value)]
  | (other, old) :: rest =>
    if other = name then (name, value) :: rest else (other, old) :: putMember name value rest

namespace Json

def member? (name : Text) : Json → Option Json
  | .object members => members.lookup name
  | _ => none

def items? : Json → Option (List Json)
  | .array items => some items
  | _ => none

def text? : Json → Option Text
  | .text value => some value
  | _ => none

def isNumber : Json → Bool
  | .number _ => true
  | _ => false

def isContainer : Json → Bool
  | .array _ | .object _ => true
  | _ => false

mutual

/-- Equality of content, whatever the order of members. -/
def same : Json → Json → Bool
  | .null, other => match other with | .null => true | _ => false
  | .bool a, other => match other with | .bool b => a == b | _ => false
  | .number a, other => match other with | .number b => a.same b | _ => false
  | .text a, other => match other with | .text b => a == b | _ => false
  | .array a, other => match other with | .array b => sameItems a b | _ => false
  | .object a, other =>
    match other with
    | .object b => a.length == b.length && sameMembers a b
    | _ => false

def sameItems : List Json → List Json → Bool
  | [], others => others.isEmpty
  | item :: items, others =>
    match others with
    | [] => false
    | other :: others => item.same other && sameItems items others

def sameMembers : List (Text × Json) → List (Text × Json) → Bool
  | [], _ => true
  | (name, value) :: members, others =>
    match others.lookup name with
    | some other => value.same other && sameMembers members others
    | none => false

end

mutual

def depth : Json → Nat
  | .array items => depthOfItems items + 1
  | .object members => depthOfMembers members + 1
  | _ => 0

def depthOfItems : List Json → Nat
  | [] => 0
  | item :: items => max item.depth (depthOfItems items)

def depthOfMembers : List (Text × Json) → Nat
  | [] => 0
  | (_, value) :: members => max value.depth (depthOfMembers members)

end

end Json

end FeatureText
