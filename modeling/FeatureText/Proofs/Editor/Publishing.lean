import FeatureText.Proofs.Editor.Visibility

/-! What is published. A change carries the features that are not hidden and no others, and which
of them are hidden stays the same while the text is formatted for it. -/
namespace FeatureText.Editor

variable {e e' : Editor} {items : List Json} {document : Json}

def formatted (e : Editor) (features : List Json) : Editor :=
  let text := formatFeatures e.options.indentWidth features
  if text = e.buffer.text then e else e.reformat text

theorem review_of_valid (read : e.features = .ok items) (valid : Schema.problems items = []) :
    e.review =
      (e.formatted items, .change (Feature.collection ((e.formatted items).published items))) := by
  rw [review, features_eq_ok_iff.mp read]
  simp only [valid]
  rfl

theorem Synced.formatted (h : Synced e) (read : e.features = .ok items)
    (written : IsWritable items)
    (objects : ∀ feature ∈ items, ∃ members, feature = .object members) :
    Synced (e.formatted items) ∧ (e.formatted items).features = .ok items ∧
      (e.formatted items).rangeFlags = e.rangeFlags := by
  unfold Editor.formatted
  dsimp only
  split
  · exact ⟨h, read, rfl⟩
  · have after := h.reformat (formatFeatures e.options.indentWidth items)
    have reread := features_reformat e e.options.indentWidth written
    have derived := derived_reformat e (formatFeatures e.options.indentWidth items)
    refine ⟨after, reread, ?_⟩
    rw [after.rangeFlags_of_derived derived reread objects, h.rangeFlags_eq read objects,
      hiddenFlags]

theorem published_eq (e : Editor) (features : List Json) :
    e.published features =
      ((features.zip (e.hiddenFlags features)).filter fun item => !item.2).map Prod.fst := by
  rw [hiddenFlags, List.zip_map_right, List.filter_map, List.map_map]
  rfl

theorem publish_of_valid (read : e.features = .ok items) (valid : Schema.problems items = []) :
    e.publish =
      ((e.formatted items).deliver
        (.change (Feature.collection ((e.formatted items).published items))),
        .change (Feature.collection ((e.formatted items).published items))) := by
  rw [publish, review_of_valid read valid]

/-- Only a document that can be read and is valid is published. -/
theorem exists_of_publish (sent : e.publish = (e', .change document)) :
    ∃ items, e.features = .ok items ∧ Schema.problems items = [] := by
  have reviewed : e.review.2 = .change document := congrArg Prod.snd sent
  unfold review at reviewed
  dsimp only at reviewed
  split at reviewed
  · cases reviewed
  · next items parsed =>
    split at reviewed
    · cases reviewed
    · next valid => exact ⟨items, features_eq_ok_iff.mpr parsed, valid⟩

theorem Synced.publish_carries_shown (h : Synced e)
    (exact : ∀ feature ∈ e.getAll, feature.HasExactNumbers)
    (sent : e.publish = (e', .change document)) :
    e.features = .ok e.getAll ∧ e.rangeFlags.length = e.getAll.length ∧
      document = Feature.collection
        (((e.getAll.zip e.rangeFlags).filter fun item => !item.2).map Prod.fst) ∧
      e'.rangeFlags = e.rangeFlags := by
  obtain ⟨items, read, valid⟩ := exists_of_publish sent
  rw [getAll_of_features read] at exact ⊢
  have objects := Feature.isObject_of_problemsFrom valid
  obtain ⟨after, reread, flags⟩ := h.formatted read (isWritable_of_features read exact) objects
  rw [publish_of_valid read valid] at sent
  cases sent
  have hidden := (after.rangeFlags_eq reread objects).symm.trans flags
  refine ⟨read, ?_, ?_, flags⟩
  · rw [h.rangeFlags_eq read objects, length_hiddenFlags]
  · rw [published_eq, hidden]

theorem execute_poll_of_due (due : e.emission.isDue e.clock.now) :
    (e.execute .poll).1 = (e.execute .emit).1 := by
  simp only [execute, andAnswer, poll, emit, Debouncer.fire, if_pos due]

theorem lastEvent_emit (e : Editor) : e.emit.1.lastEvent = some e.emit.2 := rfl

theorem emit_of_sent
    (sent : e.execute .emit = (e', .event (.change document)) ∨
      e.emission.isDue e.clock.now ∧ (e.execute .poll).1 = e' ∧
        e'.lastEvent = some (.change document)) :
    e.emit = (e', .change document) := by
  rcases sent with sent | ⟨due, rfl, last⟩
  · obtain ⟨rfl, answer⟩ := Prod.mk.inj sent
    exact Prod.ext rfl (Answer.event.inj answer)
  · rw [execute_poll_of_due due] at last ⊢
    exact Prod.ext rfl (Option.some.inj ((lastEvent_emit e).symm.trans last))

/-- A change carries, in their order, the features that were not hidden, and leaves hidden what
was. -/
theorem change_carries_shown (reachable : e.Reachable)
    (exact : ∀ feature ∈ e.getAll, feature.HasExactNumbers)
    (sent : e.execute .emit = (e', .event (.change document)) ∨
      e.emission.isDue e.clock.now ∧ (e.execute .poll).1 = e' ∧
        e'.lastEvent = some (.change document)) :
    e.features = .ok e.getAll ∧ e.rangeFlags.length = e.getAll.length ∧
      document = .object
        [("type".toList, .text "FeatureCollection".toList),
         ("features".toList, .array
          (((e.getAll.zip e.rangeFlags).filter fun item => !item.2).map Prod.fst))] ∧
      e'.rangeFlags = e.rangeFlags := by
  have quiet : Synced { e with emission := e.emission.cancel } :=
    reachable.synced.of_agrees rfl
  exact quiet.publish_carries_shown exact (emit_of_sent sent)

theorem exists_execute_emit_of_valid (read : e.features = .ok items)
    (valid : Schema.problems items = []) :
    ∃ e' document, e.execute .emit = (e', .event (.change document)) := by
  have quiet : features { e with emission := e.emission.cancel } = .ok items := read
  rw [execute, emit, publish_of_valid quiet valid]
  exact ⟨_, _, rfl⟩

theorem change_carries_shown_withHiddenTwin :
    ∃ e', withHiddenTwin.execute .emit = (e', .event (.change (.object
        [("type".toList, .text "FeatureCollection".toList),
         ("features".toList, .array [numbered 1])]))) ∧
      e'.rangeFlags = [false, true] := by
  obtain ⟨e', document, sent⟩ := exists_execute_emit_of_valid features_withHiddenTwin rfl
  have items := getAll_of_features features_withHiddenTwin
  obtain ⟨-, -, carried, flags⟩ := change_carries_shown reachable_withHiddenTwin
    (items ▸ isWritable_twins.exact) (.inl sent)
  rw [items, rangeFlags_withHiddenTwin] at carried
  rw [rangeFlags_withHiddenTwin] at flags
  exact ⟨e', carried ▸ sent, flags⟩

end FeatureText.Editor
