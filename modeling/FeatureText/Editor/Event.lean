import FeatureText.Feature.Input

/-! What subscribers are told about the document: that it holds valid features, or what keeps it
from being published. -/
namespace FeatureText

inductive Event where
  /-- A collection of the features that are not hidden. -/
  | change (document : Json)
  | misread (reason : Misreading) (content : Text)
  | invalid (first : Schema.Problem) (more : List Schema.Problem) (content : Text)

namespace Event

def isChange : Event → Bool
  | change _ => true
  | _ => false

def document? : Event → Option Json
  | change document => some document
  | _ => none

def message? : Event → Option String
  | change _ => none
  | misread reason _ => some reason.message
  | invalid first _ _ => some s!"Invalid GeoJSON: {first.message}"

def problems : Event → List Schema.Problem
  | invalid first more _ => first :: more
  | _ => []

def content : Event → Text
  | change _ => []
  | misread _ content | invalid _ _ content => content

def ofString (s : String) : Json := .text s.toList

def recordOf (members : List (String × Json)) : Json :=
  .object (members.map fun (name, value) => (name.toList, value))

def problemRecord (p : Schema.Problem) : Json :=
  recordOf [("path", .text p.path.text), ("message", ofString p.flaw.message)]

def payload : Event → Json
  | change document => document
  | failure =>
    recordOf [("message", ofString (failure.message?.getD "")),
      ("validation_errors", .array (failure.problems.map problemRecord)),
      ("content", .text failure.content)]

def record (e : Event) : Json :=
  recordOf [("kind", ofString (if e.isChange then "change" else "error")), ("payload", e.payload)]

end Event

end FeatureText
