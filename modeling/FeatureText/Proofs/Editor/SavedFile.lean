import FeatureText.Proofs.Editor.Publishing
import FeatureText.Proofs.Editor.Readable
import FeatureText.Proofs.Editor.Run
import FeatureText.Proofs.Feature.Valid

/-! Saved files. A file holds the features that are shown in a collection, and that puts two
containers around each of them where the document has one. A feature that needs the level between
is saved and never read again. -/
namespace FeatureText

namespace Feature

theorem depth_collection_le_iff {features : List Json} {limit : Nat} :
    (collection features).depth ≤ limit + 2 ↔ ∀ feature ∈ features, feature.depth ≤ limit := by
  rw [← Json.depthOfItems_le_iff]
  simp [collection, Json.depth, Json.depthOfMembers]

theorem hasDistinctNames_collection {features : List Json}
    (h : ∀ feature ∈ features, feature.HasDistinctNames) :
    (collection features).HasDistinctNames := by
  have names : ["type".toList, "features".toList].Nodup := by decide
  refine Json.hasDistinctNames_object_iff.mpr ⟨names, ?_⟩
  simp only [List.forall_mem_cons]
  exact ⟨by decide, Json.hasDistinctNames_array_iff.mpr h, List.forall_mem_nil _⟩

theorem hasExactNumbers_collection {features : List Json}
    (h : ∀ feature ∈ features, feature.HasExactNumbers) :
    (collection features).HasExactNumbers := by
  refine Json.hasExactNumbers_object_iff.mpr ?_
  simp only [List.forall_mem_cons]
  exact ⟨Json.hasExactNumbers_text _, Json.hasExactNumbers_array_iff.mpr h, List.forall_mem_nil _⟩

variable {features : List Json}

/-- A formatted collection is accepted as its features as long as it is not too deep. -/
theorem readInput_format_collection (step : Nat)
    (distinct : ∀ feature ∈ features, feature.HasDistinctNames)
    (exact : ∀ feature ∈ features, feature.HasExactNumbers)
    (valid : ∀ feature ∈ features, Schema.IsValid feature)
    (room : ∀ feature ∈ features, feature.depth ≤ 125) :
    readInput ((collection features).format step 0) = .ok features := by
  rw [readInput, parse_format step (hasDistinctNames_collection distinct)
    (hasExactNumbers_collection exact) (depth_collection_le_iff.mpr room)]
  exact validated_collection valid

theorem exists_readInput_format_collection_eq_error (step : Nat)
    (exact : ∀ feature ∈ features, feature.HasExactNumbers)
    (deep : ∃ feature ∈ features, 125 < feature.depth) :
    ∃ offset, readInput ((collection features).format step 0) =
      .error (.unreadableText
        (Refusal.message ⟨.tooDeep, offset⟩ ((collection features).format step 0))) := by
  have tooDeep : Stage.depthLimit < (collection features).depth := by
    by_contra room
    obtain ⟨feature, hf, deep⟩ := deep
    have := depth_collection_le_iff.mp (Nat.not_lt.mp room) feature hf
    omega
  obtain ⟨offset, refused⟩ := Json.exists_parse_eq_error
    (Json.spelled_format step 0 (hasExactNumbers_collection exact)) tooDeep
  exact ⟨offset, by rw [readInput, refused]⟩

end Feature

namespace Editor

def unflagged (items : List Json) (flags : List Bool) : List Json :=
  ((items.zip flags).filter fun item => !item.2).map Prod.fst

variable {e : Editor} {items : List Json}

theorem unflagged_subset (items : List Json) (flags : List Bool) :
    unflagged items flags ⊆ items := by
  intro feature hf
  obtain ⟨item, hi, rfl⟩ := List.mem_map.mp hf
  exact (List.of_mem_zip (List.mem_filter.mp hi).1).1

theorem save_of_features (read : e.features = .ok items) (name : Option Text) :
    e.save name = .ok ⟨name.getD e.options.saveName,
      (Feature.collection (unflagged items (e.hiddenFlags items))).format
        e.options.indentWidth 0⟩ := by
  rw [save, read]
  simp only [bind, Except.bind, published_eq]
  rfl

/-- A readable document of valid features can be saved, and any editor loads the file exactly if no
feature that is shown is nested more than 125 deep. -/
theorem saved_file_loads_iff_shallow (reachable : e.Reachable) (read : e.features = .ok items)
    (valid : Schema.problems items = []) (exact : ∀ feature ∈ items, feature.HasExactNumbers)
    (name : Option Text) :
    e.rangeFlags.length = items.length ∧
    ∃ file, e.save name = .ok file ∧ ∀ other : Editor,
      ((∀ feature ∈ unflagged items e.rangeFlags, feature.depth ≤ 125) →
        ∃ other', other.execute (.load file.content) =
            (other', .count (unflagged items e.rangeFlags).length) ∧
          other'.getAll = unflagged items e.rangeFlags) ∧
      ((∃ feature ∈ unflagged items e.rangeFlags, 125 < feature.depth) →
        ∃ offset, other.execute (.load file.content) =
          (other,
            .refused (.unreadableText (Refusal.message ⟨.tooDeep, offset⟩ file.content)))) := by
  have objects := Feature.isObject_of_problemsFrom valid
  have flags := reachable.synced.rangeFlags_eq read objects
  have shown := unflagged_subset items e.rangeFlags
  have written := (isWritable_of_features read exact).mono shown
  have good : ∀ feature ∈ unflagged items e.rangeFlags, Schema.IsValid feature := fun f hf =>
    Schema.problems_eq_nil_iff.mp valid f (shown hf)
  refine ⟨by rw [flags, length_hiddenFlags], _, save_of_features read name, fun other => ?_⟩
  rw [← flags]
  constructor
  · intro shallow
    have loaded := Feature.readInput_format_collection e.options.indentWidth written.distinct
      written.exact good shallow
    exact ⟨_, execute_load loaded, getAll_write written _ _⟩
  · intro deep
    obtain ⟨offset, refused⟩ := Feature.exists_readInput_format_collection_eq_error
      e.options.indentWidth written.exact deep
    exact ⟨offset, execute_load_of_not_read refused⟩

theorem saved_file_loads_iff_shallow_withHiddenTwin :
    ∃ file, withHiddenTwin.save none = .ok file ∧
      ∃ other', withBracket.execute (.load file.content) = (other', .count 1) ∧
        other'.getAll = [numbered 1] := by
  obtain ⟨-, file, saved, loads⟩ := saved_file_loads_iff_shallow reachable_withHiddenTwin
    features_withHiddenTwin rfl isWritable_twins.exact none
  obtain ⟨shallow, -⟩ := loads withBracket
  rw [rangeFlags_withHiddenTwin] at shallow
  exact ⟨file, saved, shallow (by decide)⟩

def withNested : Editor :=
  (Editor.new .default .still).run [.load (nestedFeature 123).compact]

theorem withNested_eq :
    withNested = (Editor.new .default .still).write [nestedFeature 123]
      (Editor.new .default .still).hidden (Editor.new .default .still).defaultRule := by
  rw [withNested, run_singleton, execute_load (readInput_nestedFeature (by decide))]

theorem isWritable_nestedFeature : IsWritable [nestedFeature 123] where
  distinct := by simpa using hasDistinctNames_nestedFeature 123
  exact := by simpa using hasExactNumbers_nestedFeature 123
  room := by simp [depth_nestedFeature, Stage.depthLimit]

theorem features_withNested : withNested.features = .ok [nestedFeature 123] := by
  rw [withNested_eq]
  exact features_write _ isWritable_nestedFeature _ _

theorem hidden_withNested : withNested.hidden = .empty := by
  have start : (Editor.new .default .still).hidden = .empty :=
    (derived_recompute _).hidden_eq_empty rfl
  rw [withNested_eq]
  exact (derived_write ..).hidden_eq_empty start

/-- A file with a feature as deep as a document can hold it is saved, and no editor loads it. -/
theorem file_with_nestedFeature_is_refused :
    withNested.Reachable ∧ withNested.features = .ok [nestedFeature 123] ∧
    Schema.problems [nestedFeature 123] = [] ∧ (nestedFeature 123).HasExactNumbers ∧
    ∃ file, withNested.save none = .ok file ∧ ∀ other : Editor, ∃ reason,
      other.execute (.load file.content) = (other, .refused (.unreadableText reason)) := by
  have flags : withNested.hiddenFlags [nestedFeature 123] = [false] := by
    rw [hiddenFlags, hidden_withNested]
    rfl
  have deep : ∃ feature ∈ [nestedFeature 123], 125 < feature.depth :=
    ⟨_, List.mem_singleton_self _, by rw [depth_nestedFeature]; decide⟩
  refine ⟨(Reachable.new ..).run _, features_withNested, rfl, hasExactNumbers_nestedFeature 123, _,
    save_of_features features_withNested none, fun other => ?_⟩
  rw [flags]
  obtain ⟨offset, refused⟩ := Feature.exists_readInput_format_collection_eq_error
    withNested.options.indentWidth isWritable_nestedFeature.exact deep
  exact ⟨_, execute_load_of_not_read refused⟩

end Editor

end FeatureText
