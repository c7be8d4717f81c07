import FeatureText.Editor.Features
import FeatureText.Proofs.Feature.Formatted

/-! Writing features. What is written is read again, whatever the editor held before. -/
namespace FeatureText.Editor

@[simp] theorem buffer_recompute (e : Editor) : e.recompute.buffer = e.buffer := by
  unfold recompute
  dsimp only
  split <;> rfl

@[simp] theorem buffer_settle (e : Editor) : e.settle.buffer = e.buffer :=
  buffer_recompute { e with version := e.version + 1 }

@[simp] theorem buffer_recollapse (e : Editor) (written : List Json) (rule : CollapseRule) :
    (e.recollapse written rule).buffer = e.buffer := by
  cases rule <;> rfl

theorem buffer_write (e : Editor) (features : List Json) (hidden : HiddenSet)
    (rule : CollapseRule) :
    (e.write features hidden rule).buffer =
      .ofText (formatFeatures e.options.indentWidth features) := by
  rw [write, buffer_recollapse, buffer_settle]
  rfl

/-- A list of features that formatting does not change the meaning of. -/
structure IsWritable (features : List Json) : Prop where
  distinct : ∀ feature ∈ features, feature.HasDistinctNames
  exact : ∀ feature ∈ features, feature.HasExactNumbers
  room : ∀ feature ∈ features, feature.depth < Stage.depthLimit

namespace IsWritable

theorem mono {features fewer : List Json} (h : IsWritable features) (subset : fewer ⊆ features) :
    IsWritable fewer :=
  ⟨fun f hf => h.distinct f (subset hf), fun f hf => h.exact f (subset hf),
    fun f hf => h.room f (subset hf)⟩

theorem append {features others : List Json} (h : IsWritable features) (ho : IsWritable others) :
    IsWritable (features ++ others) :=
  ⟨List.forall_mem_append.mpr ⟨h.distinct, ho.distinct⟩,
    List.forall_mem_append.mpr ⟨h.exact, ho.exact⟩, List.forall_mem_append.mpr ⟨h.room, ho.room⟩⟩

theorem insertAt {features new : List Json} (h : IsWritable features) (hn : IsWritable new)
    (place : Nat) : IsWritable (insertAt features place new) :=
  ((h.mono (List.take_subset _ _)).append hn).append (h.mono (List.drop_subset _ _))

end IsWritable

theorem isWritable_of_parseFeatures {text : Text} {features : List Json}
    (parsed : parseFeatures text = .ok features)
    (exact : ∀ feature ∈ features, feature.HasExactNumbers) : IsWritable features := by
  obtain ⟨raws, -, room, rfl⟩ := parseFeatures_eq_ok_iff.mp parsed
  refine ⟨?_, exact, ?_⟩
  · exact List.forall_mem_map.mpr fun raw _ => raw.hasDistinctNames_merged
  · exact List.forall_mem_map.mpr fun raw hr => Nat.lt_of_le_of_lt raw.depth_merged_le (room raw hr)

theorem features_eq_ok_iff {e : Editor} {features : List Json} :
    e.features = .ok features ↔ parseFeatures e.buffer.text = .ok features := by
  unfold Editor.features
  cases parseFeatures e.buffer.text <;> simp

theorem getAll_of_features {e : Editor} {features : List Json} (h : e.features = .ok features) :
    e.getAll = features := by
  rw [getAll, h]

theorem text_of_buffer {e : Editor} {step : Nat} {features : List Json}
    (buffer : e.buffer = .ofText (formatFeatures step features)) :
    e.buffer.text = formatFeatures step features := by
  rw [buffer]
  exact joinLines_splitLines_formatFeatures step features

theorem features_of_buffer {e : Editor} {step : Nat} {features : List Json}
    (h : IsWritable features) (buffer : e.buffer = .ofText (formatFeatures step features)) :
    e.features = .ok features := by
  rw [features_eq_ok_iff, text_of_buffer buffer]
  exact parseFeatures_formatFeatures step h.distinct h.exact h.room

theorem features_write (e : Editor) {features : List Json} (h : IsWritable features)
    (hidden : HiddenSet) (rule : CollapseRule) :
    (e.write features hidden rule).features = .ok features :=
  features_of_buffer h (buffer_write e features hidden rule)

theorem buffer_reformat (e : Editor) (text : Text) : (e.reformat text).buffer = .ofText text :=
  buffer_recompute _

theorem features_reformat (e : Editor) (step : Nat) {features : List Json}
    (h : IsWritable features) :
    (e.reformat (formatFeatures step features)).features = .ok features :=
  features_of_buffer h (buffer_reformat e _)

theorem features_ofText (options : Options) (clock : Clock) (step : Nat) {features : List Json}
    (h : IsWritable features) :
    (ofText options clock (formatFeatures step features)).features = .ok features :=
  features_of_buffer h (buffer_recompute _)

end FeatureText.Editor
