import FeatureText.Feature.Input
import FeatureText.Proofs.Json.Parts

/-! What is accepted as a list of features. Every accepted feature is an object, and stands in the
value that was given. -/
namespace FeatureText.Feature

theorem hasDistinctNames_of_lookup {members : List (Text × Json)} {name : Text} {value : Json}
    (distinct : (Json.object members).HasDistinctNames) (h : members.lookup name = some value) :
    value.HasDistinctNames := by
  obtain ⟨front, back, rfl, -⟩ := List.lookup_eq_some_iff.mp h
  exact (Json.hasDistinctNames_object_iff.mp distinct).2 (name, value) (by simp)

theorem hasDistinctNames_of_normalize {value : Json} {features : List Json}
    (h : normalize value = .ok features) (distinct : value.HasDistinctNames) :
    ∀ feature ∈ features, feature.HasDistinctNames := by
  cases value with
  | array items =>
    cases h
    exact Json.hasDistinctNames_array_iff.mp distinct
  | object members =>
    simp only [normalize] at h
    split at h
    · split at h
      · split at h
        · next items found =>
          cases h
          exact Json.hasDistinctNames_array_iff.mp (hasDistinctNames_of_lookup distinct found)
        · cases h
      · split at h
        · cases h
          simpa using distinct
        · cases h
    · cases h
  | _ => cases h

theorem exists_normalize_of_validated {value : Json} {features : List Json}
    (h : validated value = .ok features) :
    normalize value = .ok features ∧ Schema.firstInvalid? features = none := by
  unfold validated at h
  split at h
  · cases h
  · next normalized =>
    split at h
    · cases h
    · next none =>
      cases h
      exact ⟨normalized, none⟩

theorem hasDistinctNames_of_validated {value : Json} {features : List Json}
    (h : validated value = .ok features) (distinct : value.HasDistinctNames) :
    ∀ feature ∈ features, feature.HasDistinctNames :=
  hasDistinctNames_of_normalize (exists_normalize_of_validated h).1 distinct

theorem isObject_of_isFeature {value : Json} (h : isFeature value) : value.isObject := by
  cases value with
  | object => rfl
  | _ => cases h

theorem allFeatures_of_isRecognized {value : Json} {features : List Json}
    (recognized : isRecognized value) (h : normalize value = .ok features) :
    allFeatures features := by
  cases value with
  | array items =>
    cases h
    exact recognized
  | object members =>
    simp only [isRecognized] at recognized
    simp only [normalize] at h
    split at recognized
    · next name claimed =>
      simp only [claimed] at h
      split at recognized
      · next feature =>
        rw [feature, if_neg (by decide), if_pos rfl] at h
        cases h
        simp [allFeatures, isFeature, claimed, feature]
      · split at recognized
        · next collection =>
          rw [if_pos collection] at h
          split at recognized
          · next items found =>
            simp only [found] at h
            cases h
            exact recognized
          · cases recognized
        · cases recognized
    · cases recognized
  | _ => cases h

theorem isObject_of_featureProblems {path : Schema.Path} {feature : Json}
    (h : Schema.featureProblems path feature = []) : ∃ members, feature = .object members := by
  cases feature with
  | object members => exact ⟨members, rfl⟩
  | _ => cases h

theorem isObject_of_problemsFrom {place : Nat} {features : List Json}
    (h : Schema.problemsFrom place features = []) :
    ∀ feature ∈ features, ∃ members, feature = .object members := by
  induction features generalizing place with
  | nil => exact List.forall_mem_nil _
  | cons feature features ih =>
    obtain ⟨first, rest⟩ := List.append_eq_nil_iff.mp h
    exact List.forall_mem_cons.mpr ⟨isObject_of_featureProblems first, ih rest⟩

theorem isObject_of_validated {value : Json} {features : List Json}
    (h : validated value = .ok features) :
    ∀ feature ∈ features, ∃ members, feature = .object members := by
  have none := (exists_normalize_of_validated h).2
  rw [Schema.firstInvalid?, List.findSome?_eq_none_iff] at none
  intro feature hf
  obtain ⟨place, bound, rfl⟩ := List.getElem_of_mem hf
  have clean := none (features[place], place) (by simp [List.mem_zipIdx_iff_getElem?])
  rw [Option.map_eq_none_iff, List.head?_eq_none_iff] at clean
  exact isObject_of_featureProblems clean

end FeatureText.Feature
