import FeatureText.Json.Writer

/-! What a feature must look like. Every problem is reported with the path that leads to it. -/
namespace FeatureText

namespace Schema

inductive Step where
  | member (name : Text)
  | index (place : Nat)
deriving DecidableEq, Repr

structure Path where
  base : Text
  steps : List Step
deriving DecidableEq, Repr

def Path.push (p : Path) (step : Step) : Path := ⟨p.base, p.steps ++ [step]⟩

def Path.member (p : Path) (name : String) : Path := p.push (.member name.toList)

def Path.index (p : Path) (place : Nat) : Path := p.push (.index place)

def Step.text : Step → Text
  | .member name => '.' :: name
  | .index place => '[' :: Nat.toDigits 10 place ++ [']']

def Path.text (p : Path) : Text := p.base ++ p.steps.flatMap Step.text

inductive Flaw where
  | featureNotObject
  | missingType
  | wrongType (found : Json)
  | missingGeometry
  | geometryNotObject
  | missingGeometryType
  | wrongGeometryType (found : Json)
  | unknownGeometry (name : Text)
  | missingGeometries
  | missingCoordinates
  | coordinatesNotArray
  | wrongPosition (found : Json)
  | missingProperties
  | propertiesNotObject

def Flaw.message : Flaw → String
  | featureNotObject => "Feature must be an object"
  | missingType => "Missing feature type"
  | wrongType found =>
    s!"Invalid feature type: {String.ofList found.compact} (expected \"Feature\")"
  | missingGeometry => "Missing geometry"
  | geometryNotObject => "Geometry must be an object or null"
  | missingGeometryType => "Missing geometry type"
  | wrongGeometryType found => s!"Invalid geometry type: {String.ofList found.compact}"
  | unknownGeometry name => s!"Invalid geometry type: \"{String.ofList name}\""
  | missingGeometries => "GeometryCollection must have a geometries array"
  | missingCoordinates => "Missing coordinates"
  | coordinatesNotArray => "Coordinates must be an array"
  | wrongPosition found =>
    s!"Invalid position: {String.ofList found.compact} (expected at least two numbers)"
  | missingProperties => "Missing properties"
  | propertiesNotObject => "Properties must be an object or null"

structure Problem where
  path : Path
  flaw : Flaw

def reported (path message : String) : String := s!"{path}: {message}"

def Problem.pathText (p : Problem) : String := String.ofList p.path.text

def Problem.message (p : Problem) : String := reported p.pathText p.flaw.message

/-- How deep the positions of a geometry stand in lists. -/
def positionDepth? (name : Text) : Option Nat :=
  if name = "Point".toList then some 0
  else if name = "MultiPoint".toList ∨ name = "LineString".toList then some 1
  else if name = "MultiLineString".toList ∨ name = "Polygon".toList then some 2
  else if name = "MultiPolygon".toList then some 3
  else none

def collectionName : Text := "GeometryCollection".toList

def isPosition : Json → Bool
  | .array items => 2 ≤ items.length && items.all Json.isNumber
  | _ => false

def coordinateProblems : Nat → Path → Json → List Problem
  | 0, path, value => if isPosition value then [] else [⟨path, .wrongPosition value⟩]
  | depth + 1, path, value =>
    match value with
    | .array items =>
      items.zipIdx.flatMap fun (item, place) => coordinateProblems depth (path.index place) item
    | _ => [⟨path, .coordinatesNotArray⟩]

def simpleProblems (path : Path) (name : Text) (coordinates : Option Json) : List Problem :=
  match positionDepth? name with
  | none => [⟨path.member "type", .unknownGeometry name⟩]
  | some depth =>
    match coordinates with
    | some (.array items) => coordinateProblems depth (path.member "coordinates") (.array items)
    | some _ => [⟨path.member "coordinates", .coordinatesNotArray⟩]
    | none => [⟨path.member "coordinates", .missingCoordinates⟩]

mutual

def geometryProblems (path : Path) : Json → List Problem
  | .object members =>
    match members.lookup "type".toList with
    | some (.text name) =>
      if name = collectionName then memberProblems (path.member "geometries") members
      else simpleProblems path name (members.lookup "coordinates".toList)
    | some other => [⟨path.member "type", .wrongGeometryType other⟩]
    | none => [⟨path.member "type", .missingGeometryType⟩]
  | _ => [⟨path, .geometryNotObject⟩]

def memberProblems (path : Path) : List (Text × Json) → List Problem
  | [] => [⟨path, .missingGeometries⟩]
  | (name, value) :: members =>
    if name = "geometries".toList then
      match value with
      | .array items => listProblems path 0 items
      | _ => [⟨path, .missingGeometries⟩]
    else memberProblems path members

def listProblems (path : Path) (place : Nat) : List Json → List Problem
  | [] => []
  | item :: items => geometryProblems (path.index place) item ++ listProblems path (place + 1) items

end

def typeProblems (path : Path) : Option Json → List Problem
  | some (.text name) =>
    if name = "Feature".toList then [] else [⟨path, .wrongType (.text name)⟩]
  | some other => [⟨path, .wrongType other⟩]
  | none => [⟨path, .missingType⟩]

def propertyProblems (path : Path) : Option Json → List Problem
  | some .null | some (.object _) => []
  | some _ => [⟨path, .propertiesNotObject⟩]
  | none => [⟨path, .missingProperties⟩]

def featureProblems (path : Path) : Json → List Problem
  | .object members =>
    typeProblems (path.member "type") (members.lookup "type".toList) ++
    (match members.lookup "geometry".toList with
      | some .null => []
      | some geometry => geometryProblems (path.member "geometry") geometry
      | none => [⟨path.member "geometry", .missingGeometry⟩]) ++
    propertyProblems (path.member "properties") (members.lookup "properties".toList)
  | _ => [⟨path, .featureNotObject⟩]

def featurePath (place : Nat) : Path := ⟨"features".toList, [.index place]⟩

def problemsFrom (place : Nat) : List Json → List Problem
  | [] => []
  | feature :: rest => featureProblems (featurePath place) feature ++ problemsFrom (place + 1) rest

def problems (features : List Json) : List Problem := problemsFrom 0 features

def firstInvalid? (features : List Json) : Option (Nat × Problem) :=
  features.zipIdx.findSome? fun (feature, place) =>
    (featureProblems (featurePath place) feature).head?.map (place, ·)

end Schema

end FeatureText
