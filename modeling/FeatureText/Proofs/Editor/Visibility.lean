import FeatureText.Proofs.Editor.FeatureList
import FeatureText.Proofs.Editor.Synced

/-! Writes keep what is hidden. Keys number the features that are the same, so a write between them
changes the keys of the ones behind it; the flags are what moves with each feature. -/
namespace FeatureText.Editor

def rangeFlags (e : Editor) : List Bool := e.ranges.map fun r => e.hidden.contains r.key

/-- Where the objects of the document begin and end. -/
def objectPlaces (e : Editor) : List (Position × Position) :=
  (FeatureRange.outerObjects 0 none (Token.placed e.buffer.lines)).getD []

def HidesOnlyRanges (e : Editor) : Prop := ∀ key ∈ e.hidden.keys, ∃ r ∈ e.ranges, r.key = key

variable {e : Editor} {old new : List Json}

theorem Synced.pieces_text (h : Synced e) : pieces e.buffer.text = e.buffer.lines :=
  h.buffer.pieces_joinLines e.buffer.lines_ne_nil

theorem Synced.parse_objectPlaces (h : Synced e) (read : e.features = .ok old) :
    FeatureRange.outerObjects 0 none (Token.placed e.buffer.lines) = some e.objectPlaces ∧
      List.Forall₂ (fun o object =>
        Json.parse (FeatureRange.textOf e.buffer.lines o.1 o.2) = .ok object) e.objectPlaces
        (old.filter Json.isObject) := by
  obtain ⟨places, found, texts, -, -⟩ := FeatureRange.exists_objects (features_eq_ok_iff.mp read)
  rw [h.pieces_text] at found texts
  have same : e.objectPlaces = places := by rw [objectPlaces, found, Option.getD_some]
  exact ⟨same ▸ found, same ▸ texts⟩

theorem Synced.outline_balanced (h : Synced e) (read : e.features = .ok old) :
    e.outline.balanced := by
  have balanced := isBalanced_of_parseFeatures (features_eq_ok_iff.mp read)
  rw [h.pieces_text] at balanced
  exact h.balanced.trans balanced

theorem Synced.map_key_ranges_filter (h : Synced e) (read : e.features = .ok old) :
    e.ranges.map FeatureRange.key = Feature.keys (old.filter Json.isObject) := by
  have keys := FeatureRange.map_key_ofLines (features_eq_ok_iff.mp read)
  rw [h.pieces_text] at keys
  rw [h.ranges, if_pos (h.outline_balanced read), keys]

theorem Synced.map_key_ranges (h : Synced e) (read : e.features = .ok old)
    (objects : ∀ feature ∈ old, ∃ members, feature = .object members) :
    e.ranges.map FeatureRange.key = Feature.keys old := by
  rw [h.map_key_ranges_filter read, Json.filter_isObject_eq_self objects]

theorem Synced.rangeFlags_eq (h : Synced e) (read : e.features = .ok old)
    (objects : ∀ feature ∈ old, ∃ members, feature = .object members) :
    e.rangeFlags = e.hiddenFlags old := by
  rw [hiddenFlags, ← h.map_key_ranges read objects, List.map_map]
  rfl

theorem Synced.hidesOnlyRanges (h : Synced e) (read : e.features = .ok old) : e.HidesOnlyRanges :=
  h.hidden (h.outline_balanced read)

/-- The keys that are dropped belong to no feature, so the flags are as if none were. -/
theorem Synced.rangeFlags_of_derived (h : Synced e) {chosen : HiddenSet}
    (derived : Derived chosen e) (read : e.features = .ok old)
    (objects : ∀ feature ∈ old, ∃ members, feature = .object members) :
    e.rangeFlags = (Feature.keys old).map chosen.contains := by
  rw [rangeFlags, derived.hidden, if_pos (h.outline_balanced read),
    ← h.map_key_ranges read objects, List.map_map]
  exact List.map_congr_left fun r hr => HiddenSet.contains_prune (List.mem_map_of_mem hr)

theorem Synced.rangeFlags_write (h : Synced e) (written : IsWritable new)
    (objects : ∀ feature ∈ new, ∃ members, feature = .object members) {hidden : HiddenSet}
    (choice : e.Chooses hidden) (rule : CollapseRule) :
    (e.write new hidden rule).rangeFlags = (Feature.keys new).map hidden.contains ∧
      (e.write new hidden rule).HidesOnlyRanges := by
  have after := h.write new choice rule
  have read := features_write e written hidden rule
  exact ⟨after.rangeFlags_of_derived (derived_write e new hidden rule) read objects,
    after.hidesOnlyRanges read⟩

/-- Features that are added are not hidden, for only ranges are. -/
theorem Synced.map_contains_keys_append (h : Synced e) (read : e.features = .ok old)
    (objects : ∀ feature ∈ old, ∃ members, feature = .object members) (new : List Json) :
    (Feature.keys (old ++ new)).map e.hidden.contains =
      e.hiddenFlags old ++ List.replicate new.length false := by
  obtain ⟨fresh, keys, length, other⟩ := Feature.exists_keys_append old new
  have shown : ∀ key ∈ fresh, e.hidden.contains key = false := by
    intro key hk
    rw [Bool.eq_false_iff, ne_eq, HiddenSet.contains_iff]
    intro inside
    obtain ⟨r, hr, same⟩ := h.hidesOnlyRanges read key inside
    have there : key ∈ e.ranges.map FeatureRange.key := List.mem_map.mpr ⟨r, hr, same⟩
    rw [h.map_key_ranges read objects] at there
    exact other key hk there
  rw [keys, List.map_append, hiddenFlags, List.map_congr_left shown, List.map_const', length]

theorem length_hiddenFlags (e : Editor) (features : List Json) :
    (e.hiddenFlags features).length = features.length := by
  simp [hiddenFlags]

theorem map_contains_flagged_insertAt (e : Editor) (old new : List Json) (place : Nat) :
    (Feature.keys (insertAt old place new)).map
        (flagged (insertAt old place new)
          (insertAt (e.hiddenFlags old) place (new.map fun _ => false))).contains =
      (e.hiddenFlags old).take place ++ List.replicate new.length false ++
        (e.hiddenFlags old).drop place := by
  rw [map_contains_flagged _ (by simp [insertAt, length_hiddenFlags]), insertAt, List.map_const']

theorem map_contains_flagged_eraseIdx (e : Editor) (old : List Json) (place : Nat) :
    (Feature.keys (old.eraseIdx place)).map
        (flagged (old.eraseIdx place) ((e.hiddenFlags old).eraseIdx place)).contains =
      (e.hiddenFlags old).eraseIdx place := by
  refine map_contains_flagged _ ?_
  rw [List.length_eraseIdx, List.length_eraseIdx, length_hiddenFlags]

theorem Synced.rangeFlags_write_append (h : Synced e) (read : e.features = .ok old)
    (objects : ∀ feature ∈ old, ∃ members, feature = .object members)
    (newObjects : ∀ feature ∈ new, ∃ members, feature = .object members)
    (written : IsWritable (old ++ new)) (rule : CollapseRule) :
    (e.write (old ++ new) e.hidden rule).rangeFlags =
        e.rangeFlags ++ List.replicate new.length false ∧
      (e.write (old ++ new) e.hidden rule).HidesOnlyRanges := by
  have after := h.rangeFlags_write written (List.forall_mem_append.mpr ⟨objects, newObjects⟩)
    (.inl rfl) rule
  rwa [h.map_contains_keys_append read objects, ← h.rangeFlags_eq read objects] at after

theorem Synced.rangeFlags_write_insertAt (h : Synced e) (read : e.features = .ok old)
    (objects : ∀ feature ∈ old, ∃ members, feature = .object members)
    (newObjects : ∀ feature ∈ new, ∃ members, feature = .object members) {place : Nat}
    (written : IsWritable (insertAt old place new)) (rule : CollapseRule) :
    let after := e.write (insertAt old place new)
      (flagged (insertAt old place new)
        (insertAt (e.hiddenFlags old) place (new.map fun _ => false))) rule
    after.rangeFlags = e.rangeFlags.take place ++ List.replicate new.length false ++
        e.rangeFlags.drop place ∧ after.HidesOnlyRanges := by
  have all : ∀ feature ∈ insertAt old place new, ∃ members, feature = .object members :=
    List.forall_mem_append.mpr ⟨List.forall_mem_append.mpr
      ⟨fun f hf => objects f (List.mem_of_mem_take hf), newObjects⟩,
      fun f hf => objects f (List.mem_of_mem_drop hf)⟩
  have choice : e.Chooses (flagged (insertAt old place new)
    (insertAt (e.hiddenFlags old) place (new.map fun _ => false))) := .inr ⟨_, rfl⟩
  have after := h.rangeFlags_write written all choice rule
  rw [map_contains_flagged_insertAt] at after
  rwa [h.rangeFlags_eq read objects]

theorem Synced.rangeFlags_write_eraseIdx (h : Synced e) (read : e.features = .ok old)
    (objects : ∀ feature ∈ old, ∃ members, feature = .object members) {place : Nat}
    (written : IsWritable (old.eraseIdx place)) (rule : CollapseRule) :
    let after := e.write (old.eraseIdx place)
      (flagged (old.eraseIdx place) ((e.hiddenFlags old).eraseIdx place)) rule
    after.rangeFlags = e.rangeFlags.eraseIdx place ∧ after.HidesOnlyRanges := by
  have choice : e.Chooses (flagged (old.eraseIdx place) ((e.hiddenFlags old).eraseIdx place)) :=
    .inr ⟨_, rfl⟩
  have after := h.rangeFlags_write written (fun f hf => objects f (List.eraseIdx_subset hf)) choice
    rule
  rw [map_contains_flagged_eraseIdx] at after
  rwa [h.rangeFlags_eq read objects]

/-- Features keep their own visibility when a write moves them, also among features that are the
same, and no key stays hidden without a feature. -/
theorem writes_keep_visibility {e : Editor} (reachable : e.Reachable) {old : List Json}
    (read : e.features = .ok old) (objects : ∀ feature ∈ old, ∃ members, feature = .object members)
    (exact : ∀ feature ∈ old, feature.HasExactNumbers) (rule : CollapseRule) :
    (∀ input new, Feature.validated input = .ok new → input.HasDistinctNames →
      (∀ feature ∈ new, feature.depth ≤ 126 ∧ feature.HasExactNumbers) →
      (∃ e', e.execute (.add input rule) = (e', .done) ∧
        e'.rangeFlags = e.rangeFlags ++ List.replicate new.length false ∧ e'.HidesOnlyRanges) ∧
      ∀ (index : Int) (place : Nat),
        (place : Int) =
          max 0 (min (if index < 0 then (old.length : Int) + index else index) old.length) →
        ∃ e', e.execute (.insertFeatures input index rule) = (e', .done) ∧
          e'.rangeFlags = e.rangeFlags.take place ++ List.replicate new.length false ++
            e.rangeFlags.drop place ∧ e'.HidesOnlyRanges) ∧
    ∀ (index : Int) (place : Nat) (inside : place < old.length),
      index = place ∨ index = (place : Int) - old.length →
      ∃ e', e.execute (.removeFeature index rule) = (e', .feature (some old[place])) ∧
        e'.rangeFlags = e.rangeFlags.eraseIdx place ∧ e'.HidesOnlyRanges := by
  have synced := reachable.synced
  have there := isWritable_of_features read exact
  refine ⟨?_, ?_⟩
  · intro input new accepted distinct sound
    have written := isWritable_of_validated accepted distinct sound
    have newObjects := Feature.isObject_of_validated accepted
    refine ⟨⟨_, execute_add accepted read rule, synced.rangeFlags_write_append read objects
      newObjects (there.append written) rule⟩, ?_⟩
    intro index place clamped
    have nearest := insertionIndex_eq clamped
    exact ⟨_, execute_insertFeatures accepted read nearest rule, synced.rangeFlags_write_insertAt
      read objects newObjects (there.insertAt written place) rule⟩
  · intro index place inside at_
    have removed := execute_removeFeature read (resolveIndex?_eq_some inside at_) rule
    rw [List.getElem?_eq_getElem inside] at removed
    exact ⟨_, removed, synced.rangeFlags_write_eraseIdx read objects
      (there.mono List.eraseIdx_subset) rule⟩

@[simp] theorem buffer_toggleVisibility (e : Editor) (key : FeatureKey) :
    (e.toggleVisibility key).1.buffer = e.buffer := by
  unfold toggleVisibility
  split <;> rfl

theorem hidden_toggleVisibility {e : Editor} {key : FeatureKey}
    (there : key ∈ e.ranges.map FeatureRange.key) :
    (e.toggleVisibility key).1.hidden = (e.hidden.toggle key).1 := by
  obtain ⟨r, hr, same⟩ := List.mem_map.mp there
  have live : e.ranges.any (·.key == key) := List.any_eq_true.mpr ⟨r, hr, beq_iff_eq.mpr same⟩
  rw [toggleVisibility, if_pos live]
  rfl

theorem Derived.hidden_eq_empty {chosen : HiddenSet} (h : Derived chosen e)
    (none : chosen = .empty) : e.hidden = .empty := by
  rw [h.hidden, none]
  split <;> rfl

theorem hidden_ofText (options : Options) (clock : Clock) (text : Text) :
    (ofText options clock text).hidden = .empty := by
  have start : (Editor.new options clock).hidden = .empty :=
    (derived_recompute _).hidden_eq_empty rfl
  exact (derived_recompute _).hidden_eq_empty start

def twins : List Json := [numbered 1, numbered 1]

theorem isWritable_twins : IsWritable twins where
  distinct := by decide
  exact := by simp [twins, hasExactNumbers_numbered (n := 1) (by decide)]
  room := by decide

theorem keys_twins :
    Feature.keys twins =
      [Feature.key (Feature.hash (numbered 1)) 0, Feature.key (Feature.hash (numbered 1)) 1] := by
  simp [Feature.keys, Feature.keysAfter, twins]

def withTwins : Editor := .ofText .default .still (formatFeatures 4 twins)

theorem features_withTwins : withTwins.features = .ok twins :=
  features_ofText .default .still 4 isWritable_twins

def withHiddenTwin : Editor :=
  (withTwins.execute (.toggleVisibility (Feature.key (Feature.hash (numbered 1)) 1))).1

theorem reachable_withHiddenTwin : withHiddenTwin.Reachable := .step _ (.ofText ..)

theorem features_withHiddenTwin : withHiddenTwin.features = .ok twins := by
  have read := features_withTwins
  rw [features_eq_ok_iff] at read ⊢
  rwa [withHiddenTwin, execute, andAnswer, buffer_toggleVisibility]

theorem rangeFlags_withHiddenTwin : withHiddenTwin.rangeFlags = [false, true] := by
  have objects : ∀ feature ∈ twins, ∃ members, feature = .object members := by
    simp [twins, numbered]
  have synced : Synced withTwins := (Reachable.ofText ..).synced
  have keys := synced.map_key_ranges features_withTwins objects
  have start : withTwins.hidden = .empty := hidden_ofText ..
  have hidden : withHiddenTwin.hidden =
      ⟨[Feature.key (Feature.hash (numbered 1)) 1]⟩ := by
    rw [withHiddenTwin, execute, andAnswer, hidden_toggleVisibility (by simp [keys, keys_twins]),
      start]
    rfl
  have other : Feature.key (Feature.hash (numbered 1)) 0 ≠
      Feature.key (Feature.hash (numbered 1)) 1 := fun same => by
    cases (Feature.key_injective same).2
  rw [reachable_withHiddenTwin.synced.rangeFlags_eq features_withHiddenTwin objects, hiddenFlags,
    hidden, keys_twins]
  simp [HiddenSet.contains, other]

theorem writes_keep_visibility_withHiddenTwin :
    (∃ e', withHiddenTwin.execute (.add (numbered 1) .features) = (e', .done) ∧
      e'.rangeFlags = [false, true, false] ∧ e'.HidesOnlyRanges) ∧
    (∃ e', withHiddenTwin.execute (.insertFeatures (numbered 1) (-7) .features) = (e', .done) ∧
      e'.rangeFlags = [false, false, true] ∧ e'.HidesOnlyRanges) ∧
    ∃ e', withHiddenTwin.execute (.removeFeature (-2) .features) =
      (e', .feature (some (numbered 1))) ∧ e'.rangeFlags = [true] ∧ e'.HidesOnlyRanges := by
  have one : (numbered 1).HasExactNumbers := hasExactNumbers_numbered (by decide)
  obtain ⟨written, removed⟩ := writes_keep_visibility reachable_withHiddenTwin
    features_withHiddenTwin (by simp [twins, numbered]) isWritable_twins.exact .features
  obtain ⟨add, insert⟩ := written (numbered 1) [numbered 1] rfl (by decide)
    (by simpa using ⟨by decide, one⟩)
  have inserted := insert (-7) 0 (by decide)
  have remove := removed (-2) 0 (by decide) (by decide)
  rw [rangeFlags_withHiddenTwin] at add inserted remove
  exact ⟨add, inserted, remove⟩

end FeatureText.Editor
