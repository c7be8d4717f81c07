import FeatureText.Proofs.Feature.Valid
import Mathlib.Data.List.Enum

/-! The grammar of features. A list has no problems exactly if all its elements follow the grammar,
and the check that stops at the first problem and the one that collects all of them agree. -/
namespace FeatureText.Schema

def simpleGeometries : List (Text × Nat) :=
  [("Point".toList, 0), ("MultiPoint".toList, 1), ("LineString".toList, 1),
    ("MultiLineString".toList, 2), ("Polygon".toList, 2), ("MultiPolygon".toList, 3)]

/-- A position, or positions in lists of some depth. -/
inductive IsNest : Nat → Json → Prop where
  | position {items : List Json} :
    2 ≤ items.length → (∀ item ∈ items, ∃ n, item = .number n) → IsNest 0 (.array items)
  | list {levels : Nat} {items : List Json} :
    (∀ item ∈ items, IsNest levels item) → IsNest (levels + 1) (.array items)

inductive IsGeometry : Json → Prop where
  | simple {value coordinates : Json} {name : Text} {levels : Nat} :
    value.member? "type".toList = some (.text name) → (name, levels) ∈ simpleGeometries →
      value.member? "coordinates".toList = some coordinates → IsNest levels coordinates →
        IsGeometry value
  | collection {value : Json} {geometries : List Json} :
    value.member? "type".toList = some (.text "GeometryCollection".toList) →
      value.member? "geometries".toList = some (.array geometries) →
        (∀ geometry ∈ geometries, IsGeometry geometry) → IsGeometry value

structure IsFeature (value : Json) : Prop where
  type : value.member? "type".toList = some (.text "Feature".toList)
  properties : ∃ properties, value.member? "properties".toList = some properties ∧
    (properties = .null ∨ properties.isObject)
  geometry : ∃ geometry, value.member? "geometry".toList = some geometry ∧
    (geometry = .null ∨ IsGeometry geometry)

theorem positionDepth?_eq_some_iff {name : Text} {levels : Nat} :
    positionDepth? name = some levels ↔ (name, levels) ∈ simpleGeometries := by
  simp only [simpleGeometries, List.mem_cons, List.not_mem_nil, or_false, Prod.mk.injEq]
  constructor
  · intro h
    unfold positionDepth? at h
    repeat' split at h
    all_goals cases h
    all_goals simp_all
  · rintro (⟨rfl, rfl⟩ | ⟨rfl, rfl⟩ | ⟨rfl, rfl⟩ | ⟨rfl, rfl⟩ | ⟨rfl, rfl⟩ | ⟨rfl, rfl⟩) <;> rfl

theorem isNumber_iff {value : Json} : value.isNumber ↔ ∃ n, value = .number n := by
  cases value <;> simp [Json.isNumber]

theorem isNest_zero_iff {value : Json} : IsNest 0 value ↔ isPosition value := by
  constructor
  · rintro ⟨long, numbers⟩
    simp only [← isNumber_iff] at numbers
    simpa [isPosition] using ⟨long, numbers⟩
  · intro h
    cases value with
    | array items =>
      simp only [isPosition, Bool.and_eq_true, decide_eq_true_eq, List.all_eq_true,
        isNumber_iff] at h
      exact .position h.1 h.2
    | _ => simp [isPosition] at h

theorem isNest_succ_iff {levels : Nat} {value : Json} :
    IsNest (levels + 1) value ↔
      ∃ items, value = .array items ∧ ∀ item ∈ items, IsNest levels item := by
  constructor
  · rintro ⟨⟩
    next nests => exact ⟨_, rfl, nests⟩
  · rintro ⟨items, rfl, nests⟩
    exact .list nests

theorem IsNest.exists_array {levels : Nat} {value : Json} (h : IsNest levels value) :
    ∃ items, value = .array items := by
  cases h with
  | position => exact ⟨_, rfl⟩
  | list => exact ⟨_, rfl⟩

theorem coordinateProblems_eq_nil_iff {levels : Nat} {path : Path} {value : Json} :
    coordinateProblems levels path value = [] ↔ IsNest levels value := by
  induction levels generalizing path value with
  | zero =>
    rw [coordinateProblems, isNest_zero_iff]
    split <;> simp [*]
  | succ levels ih =>
    rw [isNest_succ_iff]
    cases value with
    | array items =>
      rw [coordinateProblems, List.flatMap_eq_nil_iff, List.forall_mem_zipIdx']
      simp only [ih, Json.array.injEq, exists_eq_left', List.forall_mem_iff_forall_getElem]
    | _ => simp [coordinateProblems]

theorem simpleProblems_eq_nil_iff {path : Path} {name : Text} {coordinates : Option Json} :
    simpleProblems path name coordinates = [] ↔
      ∃ levels value, (name, levels) ∈ simpleGeometries ∧ coordinates = some value ∧
        IsNest levels value := by
  simp only [← positionDepth?_eq_some_iff]
  unfold simpleProblems
  split
  · next unknown => simp [unknown]
  · next levels known =>
    simp only [known, Option.some.injEq, exists_and_left, exists_eq_left']
    split
    · simp [coordinateProblems_eq_nil_iff]
    · next value noArray =>
      suffices ¬IsNest levels value by simpa
      intro nests
      obtain ⟨items, rfl⟩ := nests.exists_array
      exact noArray items rfl
    · simp

theorem listProblems_eq (path : Path) (place : Nat) (items : List Json) :
    listProblems path place items =
      (items.zipIdx place).flatMap fun item => geometryProblems (path.index item.2) item.1 := by
  induction items generalizing place with
  | nil => rfl
  | cons item items ih => rw [listProblems, ih, List.zipIdx_cons, List.flatMap_cons]

theorem memberProblems_eq (path : Path) (members : List (Text × Json)) :
    memberProblems path members =
      match members.lookup "geometries".toList with
      | some (.array items) =>
        items.zipIdx.flatMap fun item => geometryProblems (path.index item.2) item.1
      | _ => [⟨path, .missingGeometries⟩] := by
  induction members with
  | nil => simp [memberProblems]
  | cons member members ih =>
    obtain ⟨name, value⟩ := member
    by_cases h : name = "geometries".toList
    · cases value <;> simp [memberProblems, listProblems_eq, h]
    · have other : ("geometries".toList == name) = false := beq_false_of_ne (Ne.symm h)
      cases value <;> simp only [memberProblems, if_neg h, List.lookup_cons, other, ih]

/-- Whatever holds of a value if it holds of the geometries listed in it holds of every value. -/
@[elab_as_elim] theorem geometry_induct {motive : Json → Prop}
    (step : ∀ value : Json,
      (∀ geometries, value.member? "geometries".toList = some (.array geometries) →
        ∀ geometry ∈ geometries, motive geometry) → motive value) (value : Json) :
    motive value := by
  -- A listed geometry is two steps inside, so the list it stands in is carried along.
  suffices motive value ∧ ∀ items, value = .array items → ∀ item ∈ items, motive item from this.1
  induction value using Json.induct with
  | array items ih =>
    refine ⟨step _ (by simp [Json.member?]), ?_⟩
    rintro _ ⟨⟩ item hi
    exact (ih item hi).1
  | object members ih =>
    refine ⟨step _ ?_, by simp⟩
    intro geometries listed
    obtain ⟨front, back, rfl, -⟩ := List.lookup_eq_some_iff.mp listed
    exact (ih ("geometries".toList, .array geometries) (by simp)).2 geometries rfl
  | _ => exact ⟨step _ (by simp [Json.member?]), by simp⟩

theorem geometryProblems_object (path : Path) (members : List (Text × Json)) :
    geometryProblems path (.object members) =
      match (Json.object members).member? "type".toList with
      | some (.text name) =>
        if name = collectionName then
          match (Json.object members).member? "geometries".toList with
          | some (.array items) =>
            items.zipIdx.flatMap fun item =>
              geometryProblems ((path.member "geometries").index item.2) item.1
          | _ => [⟨path.member "geometries", .missingGeometries⟩]
        else simpleProblems path name ((Json.object members).member? "coordinates".toList)
      | some other => [⟨path.member "type", .wrongGeometryType other⟩]
      | none => [⟨path.member "type", .missingGeometryType⟩] := by
  rw [geometryProblems, memberProblems_eq]
  rfl

theorem isObject_of_member? {value inner : Json} {name : Text}
    (h : value.member? name = some inner) : ∃ members, value = .object members := by
  cases value <;> simp_all [Json.member?]

theorem not_isSimple_of_isCollection {levels : Nat} :
    (collectionName, levels) ∉ simpleGeometries := by
  have unknown : positionDepth? collectionName = none := rfl
  simp [← positionDepth?_eq_some_iff, unknown]

theorem isGeometry_of_geometryProblems {path : Path} {value : Json}
    (h : geometryProblems path value = []) : IsGeometry value := by
  induction value using geometry_induct generalizing path with
  | step value ih =>
    cases value with
    | object members =>
      rw [geometryProblems_object] at h
      split at h
      · next name typed =>
        split at h
        · next same =>
          subst same
          split at h
          · next geometries listed =>
            apply IsGeometry.collection typed listed
            intro geometry hg
            rw [List.flatMap_eq_nil_iff, List.forall_mem_zipIdx'] at h
            obtain ⟨place, bound, rfl⟩ := List.getElem_of_mem hg
            exact ih geometries listed _ hg (h place bound)
          · cases h
        · obtain ⟨levels, coordinates, known, there, nests⟩ := simpleProblems_eq_nil_iff.mp h
          exact .simple typed known there nests
      · cases h
      · cases h
    | _ => cases h

theorem IsGeometry.geometryProblems_eq_nil {value : Json} (h : IsGeometry value) (path : Path) :
    geometryProblems path value = [] := by
  induction h generalizing path with
  | @simple _ coordinates name levels typed known there nests =>
    obtain ⟨members, rfl⟩ := isObject_of_member? typed
    have noCollection : name ≠ collectionName := by
      rintro rfl
      exact not_isSimple_of_isCollection known
    rw [geometryProblems_object, typed]
    dsimp only
    rw [if_neg noCollection]
    exact simpleProblems_eq_nil_iff.mpr ⟨levels, coordinates, known, there, nests⟩
  | @collection _ geometries typed listed _ ih =>
    obtain ⟨members, rfl⟩ := isObject_of_member? typed
    rw [geometryProblems_object, typed, listed]
    dsimp only
    rw [if_pos (show "GeometryCollection".toList = collectionName from rfl),
      List.flatMap_eq_nil_iff, List.forall_mem_zipIdx']
    intro place bound
    exact ih _ (List.getElem_mem bound) _

theorem geometryProblems_eq_nil_iff {path : Path} {value : Json} :
    geometryProblems path value = [] ↔ IsGeometry value :=
  ⟨isGeometry_of_geometryProblems, fun h => h.geometryProblems_eq_nil path⟩

theorem typeProblems_eq_nil_iff {path : Path} {value : Option Json} :
    typeProblems path value = [] ↔ value = some (.text "Feature".toList) := by
  unfold typeProblems
  split
  · split
    · next same => simp [same]
    · next other => simpa using other
  · next noText =>
    simp only [List.cons_ne_nil, Option.some.injEq, false_iff]
    exact noText _
  · simp

theorem propertyProblems_eq_nil_iff {path : Path} {value : Option Json} :
    propertyProblems path value = [] ↔
      ∃ properties, value = some properties ∧ (properties = .null ∨ properties.isObject) := by
  unfold propertyProblems
  split <;> simp_all [Json.isObject]

theorem featureProblems_eq_nil_iff {path : Path} {feature : Json} :
    featureProblems path feature = [] ↔ IsFeature feature := by
  constructor
  · intro h
    cases feature with
    | object members =>
      simp only [featureProblems, List.append_eq_nil_iff, typeProblems_eq_nil_iff,
        propertyProblems_eq_nil_iff] at h
      obtain ⟨⟨type, geometry⟩, properties⟩ := h
      refine ⟨type, properties, ?_⟩
      split at geometry
      · next there => exact ⟨.null, there, .inl rfl⟩
      · next found _ there =>
        exact ⟨found, there, .inr (geometryProblems_eq_nil_iff.mp geometry)⟩
      · cases geometry
    | _ => cases h
  · rintro ⟨type, properties, geometry, there, good⟩
    obtain ⟨members, rfl⟩ := isObject_of_member? type
    simp only [Json.member?] at type properties there
    simp only [featureProblems, List.append_eq_nil_iff, typeProblems_eq_nil_iff,
      propertyProblems_eq_nil_iff, there]
    refine ⟨⟨type, ?_⟩, properties⟩
    rcases good with rfl | good
    · rfl
    · split
      · rfl
      · next same =>
        obtain rfl := Option.some.inj same
        exact geometryProblems_eq_nil_iff.mpr good
      · next same => cases same

theorem isValid_iff {feature : Json} : IsValid feature ↔ IsFeature feature :=
  (forall_congr' fun _ => featureProblems_eq_nil_iff).trans
    ⟨fun h => h ⟨[], []⟩, fun h _ => h⟩

theorem problemsFrom_eq (place : Nat) (features : List Json) :
    problemsFrom place features =
      (features.zipIdx place).flatMap fun item => featureProblems (featurePath item.2) item.1 := by
  induction features generalizing place with
  | nil => rfl
  | cons feature features ih => rw [problemsFrom, ih, List.zipIdx_cons, List.flatMap_cons]

theorem head?_problems (features : List Json) :
    (problems features).head? =
      features.zipIdx.findSome? fun item =>
        (featureProblems (featurePath item.2) item.1).head? := by
  rw [problems, problemsFrom_eq, List.head?_flatMap]

/-- The first element with a problem is invalid, all before it are valid, and its first problem is
the first of all. -/
theorem of_firstInvalid? {features : List Json} {index : Nat} {problem : Problem}
    (h : firstInvalid? features = some (index, problem)) :
    (∃ feature, features[index]? = some feature ∧ ¬IsFeature feature) ∧
      (∀ place < index, ∀ feature, features[place]? = some feature → IsFeature feature) ∧
      (problems features).head? = some problem := by
  obtain ⟨front, ⟨feature, place⟩, back, split, found, clean⟩ := List.findSome?_eq_some_iff.mp h
  obtain ⟨first, head, same⟩ := Option.map_eq_some_iff.mp found
  obtain ⟨rfl, rfl⟩ := Prod.mk.inj same
  have entry : features.zipIdx[front.length]? = some (feature, place) := by simp [split]
  simp only [List.getElem?_zipIdx, Nat.zero_add, Option.map_eq_some_iff, Prod.mk.injEq] at entry
  obtain ⟨feature, there, rfl, rfl⟩ := entry
  refine ⟨⟨feature, there, fun good => ?_⟩, ?_, ?_⟩
  · simp [featureProblems_eq_nil_iff.mpr good] at head
  · intro place before other ho
    have inFront : (other, place) ∈ front := by
      have there : features.zipIdx[place]? = some (other, place) := by
        simp [List.getElem?_zipIdx, ho]
      rw [split, List.getElem?_append_left before] at there
      exact List.mem_of_getElem? there
    have none := clean _ inFront
    rw [Option.map_eq_none_iff, List.head?_eq_none_iff] at none
    exact featureProblems_eq_nil_iff.mp none
  · rw [head?_problems, List.findSome?_eq_some_iff]
    refine ⟨front, (feature, front.length), back, split, head, fun item hi => ?_⟩
    simpa using clean item hi

/-- A list has no problems exactly if every element follows the grammar; else it is refused with the
first problem of the first element that does not. -/
theorem problems_tell_grammar (features : List Json) :
    (problems features = [] ↔ ∀ feature ∈ features, IsFeature feature) ∧
      (firstInvalid? features = none ↔ problems features = []) ∧
      ∀ index problem,
        (firstInvalid? features = some (index, problem) ↔
          (∃ feature, features[index]? = some feature ∧ ¬IsFeature feature) ∧
            (∀ place < index, ∀ feature, features[place]? = some feature → IsFeature feature) ∧
            (problems features).head? = some problem) ∧
        (firstInvalid? features = some (index, problem) →
          Feature.validated (.array features) = .error (.invalidFeature index problem)) := by
  refine ⟨?_, ?_, ?_⟩
  · simp only [problems_eq_nil_iff, isValid_iff]
  · rw [firstInvalid?_eq_none_iff, problems_eq_nil_iff]
  · intro index problem
    refine ⟨⟨of_firstInvalid?, ?_⟩, fun h => by simp [Feature.validated, Feature.normalize, h]⟩
    rintro ⟨⟨feature, there, bad⟩, before, head⟩
    cases h : firstInvalid? features with
    | none =>
      have valid := firstInvalid?_eq_none_iff.mp h feature (List.mem_of_getElem? there)
      exact absurd (isValid_iff.mp valid) bad
    | some first =>
      obtain ⟨place, other⟩ := first
      obtain ⟨⟨found, there', bad'⟩, before', head'⟩ := of_firstInvalid? h
      have least : index = place := by
        apply Nat.le_antisymm
        · exact Nat.le_of_not_lt fun lt => bad' (before place lt found there')
        · exact Nat.le_of_not_lt fun lt => bad (before' index lt feature there)
      rw [least, Option.some.inj (head.symm.trans head')]

def withGeometry (geometry : Json) : Json :=
  .object
    [("type".toList, .text Feature.typeName), ("geometry".toList, geometry),
     ("properties".toList, .null)]

def pointAt (coordinates : List Int) : Json :=
  .object
    [("type".toList, .text "Point".toList),
     ("coordinates".toList, .array (coordinates.map fun n => .number (.integer n)))]

def gathered (geometries : List Json) : Json :=
  .object [("type".toList, .text collectionName), ("geometries".toList, .array geometries)]

def pointLists : List Json :=
  [withGeometry (gathered [pointAt [1, 2], gathered [pointAt [3, 4, 5]]]),
   withGeometry (gathered [pointAt [1, 2], pointAt [6]])]

def shortPlace : Path :=
  ((((featurePath 1).member "geometry").member "geometries").index 1).member "coordinates"

def shortPosition : Problem := ⟨shortPlace, .wrongPosition (.array [.number (.integer 6)])⟩

theorem problems_tell_grammar_pointLists :
    firstInvalid? pointLists = some (1, shortPosition) ∧
      (∃ feature, pointLists[1]? = some feature ∧ ¬IsFeature feature) ∧
      (∀ place < 1, ∀ feature, pointLists[place]? = some feature → IsFeature feature) ∧
      (problems pointLists).head? = some shortPosition ∧
      Feature.validated (.array pointLists) = .error (.invalidFeature 1 shortPosition) := by
  obtain ⟨-, -, first⟩ := problems_tell_grammar pointLists
  have found : firstInvalid? pointLists = some (1, shortPosition) := rfl
  obtain ⟨bad, before, head⟩ := (first 1 shortPosition).1.mp found
  exact ⟨found, bad, before, head, (first 1 shortPosition).2 found⟩

end FeatureText.Schema
