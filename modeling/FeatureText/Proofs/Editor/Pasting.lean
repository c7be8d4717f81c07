import FeatureText.Proofs.Editor.FeatureList
import FeatureText.Proofs.Editor.Inside
import FeatureText.Proofs.Editor.Visibility
import FeatureText.Proofs.Feature.Gap

/-! Pasting features into a list. The commas that go in are guessed from the nearest solid
characters. With the cursor outside of all objects the guess is right: the list is read with the new
features behind the objects that end in front of the cursor. -/
namespace FeatureText.Editor

/-- How many objects end in front of the cursor. -/
def objectsBefore (e : Editor) : Nat := e.objectPlaces.countP fun o => o.2 < e.cursor

variable {e : Editor} {old new : List Json}

/-- A cursor outside of all objects is in a gap between those that end in front of it and the
others, also if it is behind the end of its line. -/
theorem Reachable.exists_gap (h : e.Reachable) {raws : List Json}
    (spelled : Spelled e.buffer.text (listed raws)) (objects : ∀ raw ∈ raws, raw.isObject)
    (outside : ∀ o ∈ e.objectPlaces, ¬(o.1 < e.cursor ∧ e.cursor ≤ o.2)) :
    ∃ items others, raws = items ++ others ∧ items.length = e.objectsBefore ∧
      Gap (e.buffer.front e.cursor) (e.buffer.back e.cursor) items others := by
  have inside : e.cursor.line < e.buffer.lineCount := h.onLines.cursor
  have clean := h.synced.toClean.buffer
  have there := e.buffer.has_clamp e.cursor
  have whole := Buffer.front_append_back clean there.1
  have ends := Buffer.advance_front clean there.1 there.2
  rw [← whole] at spelled
  obtain ⟨places, found, laid⟩ := FeatureRange.exists_laid .origin spelled
  have brackets := laid.column_lt [] rfl
  rw [List.nil_append, whole, h.synced.pieces_text] at brackets
  have same : e.objectPlaces = places := by
    rw [whole, ← Token.placed_pieces, h.synced.pieces_text] at found
    rw [objectPlaces, found, Option.getD_some]
  subst same
  -- Brackets are characters, and the same of them are in front of both places.
  have starts : ∀ o ∈ e.objectPlaces, o.1 < e.buffer.clamp e.cursor ↔ o.1 < e.cursor :=
    fun o ho => Buffer.lt_clamp_iff inside (brackets o ho).1
  have stops : ∀ o ∈ e.objectPlaces, o.2 < e.buffer.clamp e.cursor ↔ o.2 < e.cursor :=
    fun o ho => Buffer.lt_clamp_iff inside (brackets o ho).2
  obtain ⟨items, others, rfl, length, gap⟩ := FeatureRange.exists_gap objects spelled found
    fun o ho => by
      rw [ends, starts o ho, ← Position.not_lt, stops o ho, Position.not_lt]
      exact outside o ho
  refine ⟨items, others, rfl, ?_, ?_⟩
  · rw [length, ends]
    exact List.countP_congr fun o ho => by simpa using stops o ho
  · rwa [Buffer.front_clamp inside, Buffer.back_clamp inside] at gap

theorem buffer_removeSelection (unselected : e.hasSelectedText = false) :
    e.removeSelection.buffer = e.buffer ∧ e.removeSelection.cursor = e.cursor ∧
      e.removeSelection.options = e.options := by
  unfold removeSelection
  split
  · next s selected =>
    rw [hasSelectedText, selected, Option.any_some, Bool.not_eq_false'] at unselected
    rw [if_pos unselected]
    exact ⟨rfl, rfl, rfl⟩
  · exact ⟨rfl, rfl, rfl⟩

theorem text_pasteFeatures (h : e.Reachable) (unselected : e.hasSelectedText = false)
    (features : List Json) :
    (e.pasteFeatures features).buffer.text =
      e.buffer.front e.cursor ++
        (opener (e.buffer.front e.cursor) ++ formatFeatures e.options.indentWidth features ++
          closer (e.buffer.back e.cursor)) ++ e.buffer.back e.cursor := by
  obtain ⟨buffer, cursor, options⟩ :=
    buffer_removeSelection (e := e.record .paste) unselected
  rw [pasteFeatures, buffer_settle, place, buffer, cursor, options]
  have plain : '\r' ∉ separated e.buffer.lines e.cursor
      (formatFeatures e.options.indentWidth features) := by
    have text := return_not_mem_formatFeatures e.options.indentWidth features
    unfold separated
    split <;> split <;> simp [text]
  have inserted := Buffer.text_insert h.synced.toClean.buffer e.cursor
    (separated e.buffer.lines e.cursor (formatFeatures e.options.indentWidth features))
  rw [joinLines_splitLines plain, Buffer.front_clamp h.onLines.cursor,
    Buffer.back_clamp h.onLines.cursor] at inserted
  exact inserted

theorem features_pasteFeatures (h : e.Reachable) (unselected : e.hasSelectedText = false)
    (read : e.features = .ok old) (objects : ∀ item ∈ old, item.isObject)
    (outside : ∀ o ∈ e.objectPlaces, ¬(o.1 < e.cursor ∧ e.cursor ≤ o.2))
    (writable : IsWritable new) (filled : new ≠ []) (newObjects : ∀ item ∈ new, item.isObject) :
    (e.pasteFeatures new).features =
      .ok (old.take e.objectsBefore ++ new ++ old.drop e.objectsBefore) := by
  obtain ⟨raws, spelled, room, rfl⟩ := parseFeatures_eq_ok_iff.mp (features_eq_ok_iff.mp read)
  have rawObjects : ∀ raw ∈ raws, raw.isObject := by
    simpa [Json.isObject_merged] using objects
  obtain ⟨items, others, rfl, length, gap⟩ := h.exists_gap spelled rawObjects outside
  have payload := spelled_formatFeatures e.options.indentWidth writable.exact
  have whole := gap.spelled_insert rawObjects payload filled newObjects
  rw [← text_pasteFeatures h unselected] at whole
  refine features_eq_ok_iff.mpr (parseFeatures_eq_ok_iff.mpr ⟨_, whole, ?_, ?_⟩)
  · rw [List.forall_mem_append] at room
    exact List.forall_mem_append.mpr
      ⟨List.forall_mem_append.mpr ⟨room.1, writable.room⟩, room.2⟩
  · have fixed : new.map Json.merged = new := by
      rw [List.map_congr_left fun item hi => Json.merged_eq_self (writable.distinct item hi),
        List.map_id']
    rw [← length, List.map_append, List.map_append, List.map_append, fixed,
      ← List.length_map Json.merged, List.take_left, List.drop_left]

theorem ne_nil_of_parse_trim {text : Text} {value : Json}
    (parsed : Json.parse (trim text) = .ok value) : text ≠ [] := by
  rintro rfl
  rw [show trim [] = [] from rfl, Json.parse_nil] at parsed
  cases parsed

theorem execute_paste {text : Text} {value : Json} (parsed : Json.parse (trim text) = .ok value)
    (recognized : Feature.isRecognized value) (normalized : Feature.normalize value = .ok new)
    (filled : new ≠ []) :
    e.execute (.paste text) = (e.pasteFeatures new, .pasted (.features new.length)) := by
  obtain ⟨first, rest, rfl⟩ := List.exists_cons_of_ne_nil filled
  have features : featuresOf? text = some (first :: rest) := by
    simp only [featuresOf?, parsed, recognized, normalized, if_true]
  have some : text.isEmpty = false := by simpa using ne_nil_of_parse_trim parsed
  rw [execute, paste, some, if_neg (by simp), features]
  rfl

/-- A text that stands for features, pasted outside of all objects of a list, puts its features
behind the objects that end in front of the cursor and changes nothing else. -/
theorem paste_inserts_features (reachable : e.Reachable) (unselected : e.hasSelectedText = false)
    (read : e.features = .ok old) (objects : ∀ item ∈ old, item.isObject)
    (outside : ∀ o ∈ e.objectPlaces, ¬(o.1 < e.cursor ∧ e.cursor ≤ o.2))
    {text : Text} {value : Json} (parsed : Json.parse (trim text) = .ok value)
    (recognized : Feature.isRecognized value) (normalized : Feature.normalize value = .ok new)
    (sound : ∀ feature ∈ new, feature.depth ≤ 126 ∧ feature.HasExactNumbers) :
    FeatureRange.outerObjects 0 none (Token.placed e.buffer.lines) = some e.objectPlaces ∧
    List.Forall₂ (fun o object =>
      Json.parse (FeatureRange.textOf e.buffer.lines o.1 o.2) = .ok object) e.objectPlaces old ∧
    ∃ e', e.execute (.paste text) = (e', .pasted (.features new.length)) ∧
      e'.features = .ok (old.take e.objectsBefore ++ new ++ old.drop e.objectsBefore) := by
  have all := Feature.allFeatures_of_isRecognized recognized normalized
  simp only [Feature.allFeatures, Bool.and_eq_true, Bool.not_eq_true', List.isEmpty_eq_false_iff,
    List.all_eq_true] at all
  obtain ⟨filled, features⟩ := all
  obtain ⟨raw, -, -, rfl⟩ := Json.parse_eq_ok_iff.mp parsed
  have writable : IsWritable new :=
    { distinct := Feature.hasDistinctNames_of_normalize normalized raw.hasDistinctNames_merged
      exact := fun feature hf => (sound feature hf).2
      room := fun feature hf => Nat.lt_succ_of_le (sound feature hf).1 }
  obtain ⟨found, texts⟩ := reachable.synced.parse_objectPlaces read
  rw [List.filter_eq_self.mpr objects] at texts
  refine ⟨found, texts, _, execute_paste parsed recognized normalized filled, ?_⟩
  exact features_pasteFeatures reachable unselected read objects outside writable filled
    fun feature hf => Feature.isObject_of_isFeature (features feature hf)

def behindFeature : Editor := (withFeature.execute (.select ⟨6, 1⟩ ⟨6, 1⟩)).1

theorem features_behindFeature : behindFeature.features = .ok [numbered 1] := by
  have same (e : Editor) (anchor head : Position) : (e.select anchor head).buffer = e.buffer := rfl
  rw [features_eq_ok_iff, behindFeature, execute, same]
  exact features_eq_ok_iff.mp features_withFeature

theorem paste_inserts_features_behindFeature :
    behindFeature.objectsBefore = 1 ∧
    ∃ e', behindFeature.execute (.paste (' ' :: (numbered 2).format 0 0 ++ ['\n'])) =
        (e', .pasted (.features 1)) ∧ e'.features = .ok [numbered 1, numbered 2] := by
  have outside : ∀ o ∈ behindFeature.objectPlaces,
      ¬(o.1 < behindFeature.cursor ∧ behindFeature.cursor ≤ o.2) := by decide +kernel
  have count : behindFeature.objectsBefore = 1 := by decide +kernel
  have trimmed : trim (' ' :: (numbered 2).format 0 0 ++ ['\n']) = (numbered 2).format 0 0 := by
    decide +kernel
  have exact := hasExactNumbers_numbered (n := 2) (by decide)
  have parsed :
      Json.parse (trim (' ' :: (numbered 2).format 0 0 ++ ['\n'])) = .ok (numbered 2) := by
    rw [trimmed]
    exact parse_format 0 (by decide) exact (by decide)
  have sound : ∀ feature ∈ [numbered 2], feature.depth ≤ 126 ∧ feature.HasExactNumbers := by
    simpa using ⟨by decide, exact⟩
  have reachable : behindFeature.Reachable := .step _ (.ofText ..)
  obtain ⟨-, -, e', pasted, features⟩ := paste_inserts_features reachable (by decide +kernel)
    features_behindFeature (by decide) outside parsed (by decide) rfl sound
  rw [count] at features
  exact ⟨count, e', pasted, features⟩

end FeatureText.Editor
