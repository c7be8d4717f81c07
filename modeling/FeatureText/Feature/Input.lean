import FeatureText.Feature.Layout
import FeatureText.Feature.Schema

/-! What is accepted as a list of features: one feature, a list, or a collection. -/
namespace FeatureText

inductive Unsupported where
  | collectionWithoutFeatures
  | objectOfType (name : Text)
  | objectWithoutType
  | valueOf (kind : String)
deriving DecidableEq, Repr

def Unsupported.message : Unsupported → String
  | collectionWithoutFeatures => "FeatureCollection without a features array"
  | objectOfType name => s!"object of type \"{String.ofList name}\""
  | objectWithoutType => "object without a type"
  | valueOf kind => s!"{kind} value"

inductive FeatureError where
  | unsupportedInput (reason : Unsupported)
  | invalidFeature (index : Nat) (problem : Schema.Problem)
  | invalidDocument (reason : Misreading)
  | unreadableText (reason : String)

namespace FeatureError

def unsupportedText (detail : String) : String := s!"Unsupported input: {detail}"

def invalidText (index : Nat) (detail : String) : String :=
  s!"Invalid feature at index {index}: {detail}"

def documentText (detail : String) : String := s!"Invalid document: {detail}"

def parseText (detail : String) : String := s!"Parse error: {detail}"

def message : FeatureError → String
  | unsupportedInput reason => unsupportedText reason.message
  | invalidFeature index problem => invalidText index problem.message
  | invalidDocument reason => documentText reason.message
  | unreadableText reason => parseText reason

end FeatureError

def Json.kindName : Json → String
  | .null => "null"
  | .bool _ => "boolean"
  | .number _ => "number"
  | .text _ => "string"
  | .array _ => "array"
  | .object _ => "object"

namespace Feature

def typeName : Text := "Feature".toList

def collectionTypeName : Text := "FeatureCollection".toList

def claimedType? (value : Json) : Option Text := (value.member? "type".toList).bind Json.text?

def normalize (value : Json) : Except Unsupported (List Json) :=
  match value with
  | .array items => .ok items
  | .object _ =>
    match claimedType? value with
    | some name =>
      if name = collectionTypeName then
        match value.member? "features".toList with
        | some (.array items) => .ok items
        | _ => .error .collectionWithoutFeatures
      else if name = typeName then .ok [value]
      else .error (.objectOfType name)
    | none => .error .objectWithoutType
  | other => .error (.valueOf other.kindName)

def isFeature (value : Json) : Bool := claimedType? value == some typeName

/-- At least one feature, and nothing else. -/
def allFeatures (items : List Json) : Bool := !items.isEmpty && items.all isFeature

/-- A feature, or a list or collection of features only. -/
def isRecognized (value : Json) : Bool :=
  match value with
  | .array items => allFeatures items
  | .object _ =>
    match claimedType? value with
    | some name =>
      if name = typeName then true
      else if name = collectionTypeName then
        match value.member? "features".toList with
        | some (.array items) => allFeatures items
        | _ => false
      else false
    | none => false
  | _ => false

def collection (features : List Json) : Json :=
  .object [("type".toList, .text collectionTypeName), ("features".toList, .array features)]

/-- The features of a value that are all valid. -/
def validated (value : Json) : Except FeatureError (List Json) :=
  match normalize value with
  | .error reason => .error (.unsupportedInput reason)
  | .ok features =>
    match Schema.firstInvalid? features with
    | some (index, problem) => .error (.invalidFeature index problem)
    | none => .ok features

def readInput (text : Text) : Except FeatureError (List Json) :=
  match Json.parse text with
  | .error refusal => .error (.unreadableText (refusal.message text))
  | .ok value => validated value

end Feature

end FeatureText
