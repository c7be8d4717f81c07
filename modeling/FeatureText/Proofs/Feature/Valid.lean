import FeatureText.Proofs.Feature.Input

/-! Valid features. What is wrong with a feature does not depend on where it stands, so any choice
of valid features is accepted again, also from inside a collection. -/
namespace FeatureText

namespace Schema

theorem flaws_coordinateProblems (p q : Path) (depth : Nat) (value : Json) :
    (coordinateProblems depth p value).map Problem.flaw =
      (coordinateProblems depth q value).map Problem.flaw := by
  induction depth generalizing p q value with
  | zero =>
    rw [coordinateProblems, coordinateProblems]
    split <;> rfl
  | succ depth ih =>
    cases value with
    | array items =>
      rw [coordinateProblems, coordinateProblems, List.map_flatMap, List.map_flatMap]
      exact List.flatMap_congr fun item _ => ih _ _ item.1
    | _ => rfl

theorem flaws_simpleProblems (p q : Path) (name : Text) (coordinates : Option Json) :
    (simpleProblems p name coordinates).map Problem.flaw =
      (simpleProblems q name coordinates).map Problem.flaw := by
  unfold simpleProblems
  split
  · rfl
  · split
    · exact flaws_coordinateProblems _ _ _ _
    · rfl
    · rfl

mutual

/-- What is wrong with a geometry does not depend on its path. -/
theorem flaws_geometryProblems (p q : Path) : ∀ value : Json,
    (geometryProblems p value).map Problem.flaw = (geometryProblems q value).map Problem.flaw
  | .object members => by
    rw [geometryProblems, geometryProblems]
    split
    · split
      · exact flaws_memberProblems _ _ members
      · exact flaws_simpleProblems _ _ _ _
    · rfl
    · rfl
  | .null | .bool _ | .number _ | .text _ | .array _ => rfl

theorem flaws_memberProblems (p q : Path) : ∀ members : List (Text × Json),
    (memberProblems p members).map Problem.flaw = (memberProblems q members).map Problem.flaw
  | [] => rfl
  | (_, .array items) :: members => by
    rw [memberProblems, memberProblems]
    split
    · exact flaws_listProblems p q 0 items
    · exact flaws_memberProblems p q members
  | (_, .null) :: members | (_, .bool _) :: members | (_, .number _) :: members
  | (_, .text _) :: members | (_, .object _) :: members => by
    simp only [memberProblems]
    split
    · rfl
    · exact flaws_memberProblems p q members

theorem flaws_listProblems (p q : Path) (place : Nat) : ∀ items : List Json,
    (listProblems p place items).map Problem.flaw = (listProblems q place items).map Problem.flaw
  | [] => rfl
  | item :: items => by
    rw [listProblems, listProblems, List.map_append, List.map_append,
      flaws_geometryProblems (p.index place) (q.index place) item,
      flaws_listProblems p q (place + 1) items]

end

theorem flaws_featureProblems (p q : Path) (feature : Json) :
    (featureProblems p feature).map Problem.flaw =
      (featureProblems q feature).map Problem.flaw := by
  have type (value : Option Json) : (typeProblems (p.member "type") value).map Problem.flaw =
      (typeProblems (q.member "type") value).map Problem.flaw := by
    unfold typeProblems
    repeat' split
    all_goals rfl
  have properties (value : Option Json) :
      (propertyProblems (p.member "properties") value).map Problem.flaw =
        (propertyProblems (q.member "properties") value).map Problem.flaw := by
    unfold propertyProblems
    split <;> rfl
  cases feature with
  | object members =>
    simp only [featureProblems, List.map_append, type, properties]
    congr 2
    split
    · rfl
    · exact flaws_geometryProblems _ _ _
    · rfl
  | _ => rfl

/-- Nothing is wrong with the feature, wherever it stands. -/
def IsValid (feature : Json) : Prop := ∀ path, featureProblems path feature = []

theorem isValid_of_featureProblems {path : Path} {feature : Json}
    (h : featureProblems path feature = []) : IsValid feature := by
  intro other
  have same := flaws_featureProblems other path feature
  rwa [h, List.map_nil, List.map_eq_nil_iff] at same

theorem problemsFrom_eq_nil_iff {place : Nat} {features : List Json} :
    problemsFrom place features = [] ↔ ∀ feature ∈ features, IsValid feature := by
  induction features generalizing place with
  | nil => simp [problemsFrom]
  | cons feature features ih =>
    rw [problemsFrom, List.append_eq_nil_iff, ih, List.forall_mem_cons]
    exact and_congr_left fun _ => ⟨isValid_of_featureProblems, fun valid => valid _⟩

theorem problems_eq_nil_iff {features : List Json} :
    problems features = [] ↔ ∀ feature ∈ features, IsValid feature :=
  problemsFrom_eq_nil_iff

theorem firstInvalid?_eq_none_iff {features : List Json} :
    firstInvalid? features = none ↔ ∀ feature ∈ features, IsValid feature := by
  simp only [firstInvalid?, List.findSome?_eq_none_iff, Option.map_eq_none_iff,
    List.head?_eq_none_iff]
  constructor
  · intro h feature hf
    obtain ⟨place, bound, rfl⟩ := List.getElem_of_mem hf
    exact isValid_of_featureProblems
      (h (features[place], place) (by simp [List.mem_zipIdx_iff_getElem?]))
  · intro h item hi
    exact h item.1 (List.fst_mem_of_mem_zipIdx hi) _

end Schema

namespace Feature

theorem normalize_collection (features : List Json) :
    normalize (collection features) = .ok features := rfl

theorem validated_array {features : List Json}
    (valid : ∀ feature ∈ features, Schema.IsValid feature) :
    validated (.array features) = .ok features := by
  simp only [validated, normalize, Schema.firstInvalid?_eq_none_iff.mpr valid]

theorem validated_collection {features : List Json}
    (valid : ∀ feature ∈ features, Schema.IsValid feature) :
    validated (collection features) = .ok features := by
  simp only [validated, normalize_collection, Schema.firstInvalid?_eq_none_iff.mpr valid]

end Feature

end FeatureText
