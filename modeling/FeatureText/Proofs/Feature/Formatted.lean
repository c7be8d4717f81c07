import FeatureText.Proofs.Feature.Layout
import FeatureText.Proofs.Json.Format
import FeatureText.Proofs.Text.Line

/-! Formatted feature lists. Whatever the indent, formatted text reads back as what was
formatted, and cutting it into lines loses nothing. -/
namespace FeatureText

theorem spelled_formatFeatures_reread (step : Nat) {features : List Json}
    (h : ∀ feature ∈ features, feature.HasReadableNumbers) :
    Spelled (formatFeatures step features) (listed (features.map Json.reread)) := by
  rw [listed, List.map_map]
  exact .intercalate (List.all_eq_true.mp rfl) fun feature hf =>
    Json.spelled_format_reread step 0 (h feature hf)

theorem spelled_formatFeatures (step : Nat) {features : List Json}
    (h : ∀ feature ∈ features, feature.HasExactNumbers) :
    Spelled (formatFeatures step features) (listed features) := by
  have := spelled_formatFeatures_reread step fun f hf => (h f hf).hasReadableNumbers
  rwa [List.map_congr_left fun f hf => Json.reread_eq_self (h f hf), List.map_id'] at this

theorem parse_format (step : Nat) {value : Json} (distinct : value.HasDistinctNames)
    (exact : value.HasExactNumbers) (room : value.depth ≤ Stage.depthLimit) :
    Json.parse (value.format step 0) = .ok value :=
  Json.parse_eq_ok_iff.mpr
    ⟨value, Json.spelled_format step 0 exact, room, Json.merged_eq_self distinct⟩

/-- Formatted features that are not too deep are read back, each as what its spelling says. -/
theorem parseFeatures_formatFeatures_reread (step : Nat) {features : List Json}
    (readable : ∀ feature ∈ features, feature.HasReadableNumbers)
    (room : ∀ feature ∈ features, feature.depth < Stage.depthLimit) :
    parseFeatures (formatFeatures step features) =
      .ok (features.map fun feature => feature.reread.merged) := by
  refine parseFeatures_eq_ok_iff.mpr
    ⟨features.map Json.reread, spelled_formatFeatures_reread step readable, ?_, by simp⟩
  exact List.forall_mem_map.mpr fun feature hf => (Json.depth_reread feature).symm ▸ room feature hf

theorem exists_parseFeatures_formatFeatures_eq_error (step : Nat) {features : List Json}
    (readable : ∀ feature ∈ features, feature.HasReadableNumbers)
    (deep : ∃ feature ∈ features, Stage.depthLimit ≤ feature.depth) :
    ∃ place, parseFeatures (formatFeatures step features) = .error ⟨.tooDeep, place⟩ := by
  obtain ⟨feature, hf, deep⟩ := deep
  refine exists_parseFeatures_eq_error (spelled_formatFeatures_reread step readable)
    ⟨feature.reread, List.mem_map_of_mem hf, ?_⟩
  rwa [Json.depth_reread]

theorem parseFeatures_formatFeatures (step : Nat) {features : List Json}
    (distinct : ∀ feature ∈ features, feature.HasDistinctNames)
    (exact : ∀ feature ∈ features, feature.HasExactNumbers)
    (room : ∀ feature ∈ features, feature.depth < Stage.depthLimit) :
    parseFeatures (formatFeatures step features) = .ok features := by
  rw [parseFeatures_formatFeatures_reread step (fun f hf => (exact f hf).hasReadableNumbers) room]
  refine congrArg Except.ok
    ((List.map_congr_left fun feature hf => ?_).trans (List.map_id features))
  rw [Json.reread_eq_self (exact feature hf), Json.merged_eq_self (distinct feature hf), id]

/-- Formatting undoes parsing, for lists of features and for single values. -/
theorem format_reads_back :
    (∀ (width : Nat) (features : List Json),
      (∀ feature ∈ features,
        feature.HasDistinctNames ∧ feature.HasExactNumbers ∧ feature.depth ≤ 126) →
      parseFeatures (formatFeatures width features) = .ok features) ∧
    ∀ (width : Nat) (value : Json),
      value.HasDistinctNames → value.HasExactNumbers → value.depth ≤ 127 →
      Json.parse (value.format width 0) = .ok value := by
  constructor
  · intro width features h
    exact parseFeatures_formatFeatures width (fun f hf => (h f hf).1) (fun f hf => (h f hf).2.1)
      fun f hf => Nat.lt_succ_of_le (h f hf).2.2
  · intro width value distinct exact room
    exact parse_format width distinct exact room

def mixedValue : Json :=
  .object
    [(['a'], .array [.number (.integer (-7)), .object [], .text ['"', '\n', '}']]), ([], .null)]

theorem hasExactNumbers_mixedValue : mixedValue.HasExactNumbers := by
  simpa [Json.HasExactNumbers, mixedValue, Json.parts, Json.partsOfItems, Json.partsOfMembers]
    using Number.readsBack_integer (by decide) (by decide)

theorem format_reads_back_mixedValue :
    parseFeatures (formatFeatures 2 [mixedValue, .null, mixedValue]) =
        .ok [mixedValue, .null, mixedValue] ∧
      Json.parse (mixedValue.format 0 0) = .ok mixedValue := by
  have exact : mixedValue.HasExactNumbers ∧ Json.null.HasExactNumbers :=
    ⟨hasExactNumbers_mixedValue, by simp [Json.HasExactNumbers, Json.parts]⟩
  have features : ∀ feature ∈ [mixedValue, .null, mixedValue],
      feature.HasDistinctNames ∧ feature.HasExactNumbers ∧ feature.depth ≤ 126 := by
    simp only [List.forall_mem_cons]
    refine ⟨⟨by decide, exact.1, by decide⟩, ⟨by decide, exact.2, by decide⟩, ?_⟩
    exact ⟨⟨by decide, exact.1, by decide⟩, by simp⟩
  exact ⟨format_reads_back.1 2 _ features,
    format_reads_back.2 0 _ (by decide) exact.1 (by decide)⟩

theorem return_not_mem_formatFeatures (step : Nat) (features : List Json) :
    '\r' ∉ formatFeatures step features := by
  have separator : ∀ c ∈ [',', '\n'], Json.isWritten c := List.all_eq_true.mp rfl
  have written := forall_mem_intercalate separator
    (List.forall_mem_map.mpr fun feature (_ : feature ∈ features) =>
      Json.isWritten_format step 0 feature)
  intro hr
  exact absurd (written _ hr) (by decide)

theorem joinLines_splitLines_formatFeatures (step : Nat) (features : List Json) :
    joinLines (splitLines (formatFeatures step features)) = formatFeatures step features :=
  joinLines_splitLines (return_not_mem_formatFeatures step features)

end FeatureText
