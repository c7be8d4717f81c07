import FeatureText.Proofs.Editor.Command
import FeatureText.Proofs.Editor.Write
import FeatureText.Proofs.Feature.Input
import FeatureText.Proofs.Feature.Range

/-! The document as a list. Writes do to the features what they would do to a list, and a write that
is refused leaves everything as it was. -/
namespace FeatureText

theorem insertionIndex_eq {index : Int} {length place : Nat}
    (h : (place : Int) =
      max 0 (min (if index < 0 then (length : Int) + index else index) length)) :
    insertionIndex index length = place := by
  unfold insertionIndex
  split at h
  · next negative =>
    rw [if_pos negative]
    omega
  · next positive =>
    rw [if_neg positive]
    omega

theorem resolveIndex?_eq_some {index : Int} {length place : Nat} (inside : place < length)
    (h : index = place ∨ index = (place : Int) - length) :
    resolveIndex? index length = some place := by
  unfold resolveIndex?
  by_cases negative : index < 0
  · have : (length : Int) + index = place := by omega
    rw [if_pos negative, this]
    simp [inside]
  · have : index = place := by omega
    rw [if_neg negative, this]
    simp [inside]

theorem resolveIndex?_eq_none {index : Int} {length : Nat}
    (h : ∀ place < length, index ≠ place ∧ index ≠ (place : Int) - length) :
    resolveIndex? index length = none := by
  unfold resolveIndex?
  by_cases negative : index < 0
  · rw [if_pos negative]
    refine if_neg fun inside => ?_
    have := (h ((length : Int) + index).toNat (by omega)).2
    omega
  · rw [if_neg negative]
    refine if_neg fun inside => ?_
    have := (h index.toNat (by omega)).1
    omega

namespace Editor

section Calls

variable {α β : Type} (e : Editor)

@[simp] theorem call_pure (value : α) : e.call (pure value) = (e, .ok value) := rfl

@[simp] theorem call_liftM (result : Except FeatureError α) :
    e.call (liftM result) = (e, result) := rfl

@[simp] theorem call_get : e.call get = (e, .ok e) := rfl

@[simp] theorem call_modify (f : Editor → Editor) : e.call (modify f) = (f e, .ok ()) := rfl

@[simp] theorem call_map (f : α → β) (c : Call α) :
    e.call (f <$> c) = ((e.call c).1, (e.call c).2.map f) := by
  simp only [call]
  rw [ExceptT.run_map, StateT.run_map]
  rfl

/-- What is done before an error stays done. -/
@[simp] theorem call_bind (c : Call α) (f : α → Call β) :
    e.call (c >>= f) =
      match e.call c with
      | (e', .ok value) => e'.call (f value)
      | (e', .error reason) => (e', .error reason) := by
  simp only [call]
  rw [ExceptT.run_bind, StateT.run_bind]
  rcases c.run.run e with ⟨reason | value, e'⟩ <;> rfl

@[simp] theorem andAnswer_orRefused_ok (answer : α → Answer) (value : α) :
    andAnswer (orRefused answer) (e, .ok value) = (e, answer value) := rfl

@[simp] theorem andAnswer_orRefused_error (answer : α → Answer) (reason : FeatureError) :
    andAnswer (orRefused answer) (e, .error reason) = (e, .refused reason) := rfl

end Calls

theorem isWritable_of_validated {input : Json} {new : List Json}
    (accepted : Feature.validated input = .ok new) (distinct : input.HasDistinctNames)
    (sound : ∀ feature ∈ new, feature.depth ≤ 126 ∧ feature.HasExactNumbers) : IsWritable new where
  distinct := Feature.hasDistinctNames_of_validated accepted distinct
  exact := fun f hf => (sound f hf).2
  room := fun f hf => Nat.lt_succ_of_le (sound f hf).1

theorem isWritable_of_features {e : Editor} {old : List Json} (read : e.features = .ok old)
    (exact : ∀ feature ∈ old, feature.HasExactNumbers) : IsWritable old :=
  isWritable_of_parseFeatures (features_eq_ok_iff.mp read) exact

variable {e : Editor} {input : Json} {old new : List Json}

theorem execute_set (accepted : Feature.validated input = .ok new) (rule : CollapseRule) :
    e.execute (.set input rule) = (e.write new e.hidden rule, .done) := by
  -- Not `rw [execute]`, which first makes the equations of all calls.
  change andAnswer (orRefused fun _ => .done) (e.call (set input rule)) = _
  simp [set, accepted]

theorem execute_add (accepted : Feature.validated input = .ok new) (read : e.features = .ok old)
    (rule : CollapseRule) :
    e.execute (.add input rule) = (e.write (old ++ new) e.hidden rule, .done) := by
  change andAnswer (orRefused fun _ => .done) (e.call (add input rule)) = _
  simp [add, accepted, read]

theorem execute_insertFeatures (accepted : Feature.validated input = .ok new)
    (read : e.features = .ok old) {index : Int} {place : Nat}
    (nearest : insertionIndex index old.length = place) (rule : CollapseRule) :
    e.execute (.insertFeatures input index rule) =
      (e.write (insertAt old place new)
        (flagged (insertAt old place new)
          (insertAt (e.hiddenFlags old) place (new.map fun _ => false))) rule, .done) := by
  subst nearest
  change andAnswer (orRefused fun _ => .done) (e.call (insertFeatures input index rule)) = _
  simp [insertFeatures, accepted, read]

theorem execute_removeFeature (read : e.features = .ok old) {index : Int} {place : Nat}
    (found : resolveIndex? index old.length = some place) (rule : CollapseRule) :
    e.execute (.removeFeature index rule) =
      (e.write (old.eraseIdx place)
        (flagged (old.eraseIdx place) ((e.hiddenFlags old).eraseIdx place)) rule,
        .feature old[place]?) := by
  change andAnswer (orRefused .feature) (e.call (removeFeature index rule)) = _
  simp [removeFeature, read, found, Except.map]

theorem execute_removeFeature_of_none (read : e.features = .ok old) {index : Int}
    (outside : resolveIndex? index old.length = none) (rule : CollapseRule) :
    e.execute (.removeFeature index rule) = (e, .feature none) := by
  change andAnswer (orRefused .feature) (e.call (removeFeature index rule)) = _
  simp [removeFeature, read, outside]

theorem getAll_write (h : IsWritable new) (hidden : HiddenSet) (rule : CollapseRule) :
    (e.write new hidden rule).getAll = new :=
  getAll_of_features (features_write e h hidden rule)

theorem get?_eq (read : e.features = .ok old) {index : Int} {place : Nat}
    (inside : place < old.length) (h : index = place ∨ index = (place : Int) - old.length) :
    e.get? index = some old[place] := by
  rw [get?, getAll_of_features read, resolveIndex?_eq_some inside h, Option.bind_some]
  exact List.getElem?_eq_getElem inside

/-- Input that is not accepted is refused before anything else is looked at. -/
theorem execute_of_not_accepted {reason : FeatureError}
    (refused : Feature.validated input = .error reason) (rule : CollapseRule) :
    e.execute (.set input rule) = (e, .refused reason) ∧
      e.execute (.add input rule) = (e, .refused reason) ∧
      ∀ index, e.execute (.insertFeatures input index rule) = (e, .refused reason) := by
  refine ⟨?_, ?_, fun index => ?_⟩
  · change andAnswer (orRefused fun _ => .done) (e.call (set input rule)) = _
    simp [set, refused]
  · change andAnswer (orRefused fun _ => .done) (e.call (add input rule)) = _
    simp [add, refused]
  · change andAnswer (orRefused fun _ => .done) (e.call (insertFeatures input index rule)) = _
    simp [insertFeatures, refused]

theorem execute_load {text : Text} (accepted : Feature.readInput text = .ok new) :
    e.execute (.load text) = (e.write new e.hidden e.defaultRule, .count new.length) := by
  change andAnswer (orRefused .count) (e.call (load text)) = _
  simp [load, accepted, Except.map]

theorem execute_load_of_not_read {text : Text} {reason : FeatureError}
    (refused : Feature.readInput text = .error reason) :
    e.execute (.load text) = (e, .refused reason) := by
  change andAnswer (orRefused .count) (e.call (load text)) = _
  simp [load, refused]

theorem execute_of_not_readable {reason : FeatureError} (unread : e.features = .error reason)
    (accepted : Feature.validated input = .ok new) (rule : CollapseRule) :
    e.execute (.add input rule) = (e, .refused reason) ∧
      ∀ index, e.execute (.insertFeatures input index rule) = (e, .refused reason) := by
  refine ⟨?_, fun index => ?_⟩
  · change andAnswer (orRefused fun _ => .done) (e.call (add input rule)) = _
    simp [add, accepted, unread]
  · change andAnswer (orRefused fun _ => .done) (e.call (insertFeatures input index rule)) = _
    simp [insertFeatures, accepted, unread]

theorem execute_removeFeature_of_not_readable {reason : FeatureError}
    (unread : e.features = .error reason) (index : Int) (rule : CollapseRule) :
    e.execute (.removeFeature index rule) = (e, .refused reason) := by
  change andAnswer (orRefused .feature) (e.call (removeFeature index rule)) = _
  simp [removeFeature, unread]

/-- The commands for features act on the document as on a list. One that cannot do its work gives
its error and leaves the editor as it was. -/
theorem commands_act_as_on_list (e : Editor) (rule : CollapseRule) :
    (∀ input new, Feature.validated input = .ok new → input.HasDistinctNames →
      (∀ feature ∈ new, feature.depth ≤ 126 ∧ feature.HasExactNumbers) →
      (∃ e', e.execute (.set input rule) = (e', .done) ∧ e'.getAll = new) ∧
      ∀ old, e.features = .ok old → (∀ feature ∈ old, feature.HasExactNumbers) →
        (∃ e', e.execute (.add input rule) = (e', .done) ∧ e'.getAll = old ++ new) ∧
        ∀ (index : Int) (place : Nat),
          (place : Int) =
            max 0 (min (if index < 0 then (old.length : Int) + index else index) old.length) →
          ∃ e', e.execute (.insertFeatures input index rule) = (e', .done) ∧
            e'.getAll = old.take place ++ new ++ old.drop place) ∧
    (∀ old, e.features = .ok old →
      (∀ (index : Int) (place : Nat) (inside : place < old.length),
        index = place ∨ index = (place : Int) - old.length →
        e.get? index = some old[place] ∧
        ((∀ feature ∈ old, feature.HasExactNumbers) →
          ∃ e', e.execute (.removeFeature index rule) = (e', .feature (some old[place])) ∧
            e'.getAll = old.eraseIdx place)) ∧
      ∀ index : Int,
        (∀ place < old.length, index ≠ place ∧ index ≠ (place : Int) - old.length) →
        e.execute (.removeFeature index rule) = (e, .feature none)) ∧
    (∀ input reason, Feature.validated input = .error reason →
      e.execute (.set input rule) = (e, .refused reason) ∧
      e.execute (.add input rule) = (e, .refused reason) ∧
      ∀ index, e.execute (.insertFeatures input index rule) = (e, .refused reason)) ∧
    (∀ text reason, Feature.readInput text = .error reason →
      e.execute (.load text) = (e, .refused reason)) ∧
    ∀ reason, e.features = .error reason →
      (∀ input new, Feature.validated input = .ok new →
        e.execute (.add input rule) = (e, .refused reason) ∧
        ∀ index, e.execute (.insertFeatures input index rule) = (e, .refused reason)) ∧
      ∀ index, e.execute (.removeFeature index rule) = (e, .refused reason) := by
  refine ⟨?_, ?_, ?_, ?_, ?_⟩
  · intro input new accepted distinct sound
    have written := isWritable_of_validated accepted distinct sound
    refine ⟨⟨_, execute_set accepted rule, getAll_write written _ _⟩, ?_⟩
    intro old read exact
    have there := isWritable_of_features read exact
    refine ⟨⟨_, execute_add accepted read rule, getAll_write (there.append written) _ _⟩, ?_⟩
    intro index place clamped
    have nearest := insertionIndex_eq clamped
    exact ⟨_, execute_insertFeatures accepted read nearest rule,
      getAll_write (there.insertAt written place) _ _⟩
  · intro old read
    refine ⟨fun index place inside at_ => ⟨get?_eq read inside at_, fun exact => ?_⟩, ?_⟩
    · have there := isWritable_of_features read exact
      have removed := execute_removeFeature read (resolveIndex?_eq_some inside at_) rule
      rw [List.getElem?_eq_getElem inside] at removed
      exact ⟨_, removed, getAll_write (there.mono List.eraseIdx_subset) _ _⟩
    · intro index outside
      exact execute_removeFeature_of_none read (resolveIndex?_eq_none outside) rule
  · intro input reason refused
    exact execute_of_not_accepted refused rule
  · intro text reason refused
    exact execute_load_of_not_read refused
  · intro reason unread
    exact ⟨fun input new accepted => execute_of_not_readable unread accepted rule,
      fun index => execute_removeFeature_of_not_readable unread index rule⟩

def numbered (n : Int) : Json :=
  .object
    [("type".toList, .text Feature.typeName), ("geometry".toList, .null),
     ("properties".toList, .object [(['n'], .number (.integer n))])]

theorem hasExactNumbers_numbered {n : Int} (small : 0 ≤ n ∧ n < 100) :
    (numbered n).HasExactNumbers := by
  have exact : (Number.integer n).ReadsBack := Number.readsBack_integer (by omega) (by omega)
  simpa [Json.HasExactNumbers, numbered, Json.parts, Json.partsOfMembers] using exact

def withFeature : Editor := .ofText .default .still (formatFeatures 4 [numbered 1])

theorem features_withFeature : withFeature.features = .ok [numbered 1] :=
  features_ofText .default .still 4
    ⟨by decide, by simp [hasExactNumbers_numbered (n := 1) (by decide)], by decide⟩

def withBracket : Editor := .ofText .default .still ['{']

theorem exists_features_withBracket : ∃ reason, withBracket.features = .error reason := by
  cases read : withBracket.features with
  | error reason => exact ⟨reason, rfl⟩
  | ok items =>
    have text : withBracket.buffer.text = ['{'] := by
      rw [withBracket, ofText, buffer_recompute]
      rfl
    rw [features_eq_ok_iff, text] at read
    exact absurd (isBalanced_of_parseFeatures read) (by decide)

theorem exists_readInput_nil : ∃ reason, Feature.readInput [] = .error reason := by
  rw [Feature.readInput, Json.parse_nil]
  exact ⟨_, rfl⟩

theorem commands_act_as_on_list_withFeature :
    (∃ e', withFeature.execute (.set (numbered 2) .features) = (e', .done) ∧
      e'.getAll = [numbered 2]) ∧
    (∃ e', withFeature.execute (.add (numbered 2) .features) = (e', .done) ∧
      e'.getAll = [numbered 1, numbered 2]) ∧
    (∃ e', withFeature.execute (.insertFeatures (numbered 2) (-7) .features) = (e', .done) ∧
      e'.getAll = [numbered 2, numbered 1]) ∧
    withFeature.get? (-1) = some (numbered 1) ∧
    (∃ e', withFeature.execute (.removeFeature (-1) .features) =
      (e', .feature (some (numbered 1))) ∧ e'.getAll = []) ∧
    withFeature.execute (.removeFeature 1 .features) = (withFeature, .feature none) ∧
    withFeature.execute (.add .null .features) =
      (withFeature, .refused (.unsupportedInput (.valueOf "null"))) ∧
    (∃ reason, withFeature.execute (.load []) = (withFeature, .refused reason)) ∧
    ∃ reason, withBracket.execute (.removeFeature 0 .features) =
      (withBracket, .refused reason) := by
  have one : ∀ feature ∈ [numbered 1], feature.HasExactNumbers := by
    simpa using hasExactNumbers_numbered (n := 1) (by decide)
  have two : ∀ feature ∈ [numbered 2], feature.depth ≤ 126 ∧ feature.HasExactNumbers := by
    simpa using ⟨by decide, hasExactNumbers_numbered (n := 2) (by decide)⟩
  obtain ⟨written, read, refused, unread, -⟩ := commands_act_as_on_list withFeature .features
  obtain ⟨set, more⟩ := written (numbered 2) [numbered 2] rfl (by decide) two
  obtain ⟨add, insert⟩ := more _ features_withFeature one
  obtain ⟨there, outside⟩ := read _ features_withFeature
  obtain ⟨get, remove⟩ := there (-1) 0 (by decide) (by decide)
  obtain ⟨fault, empty⟩ := exists_readInput_nil
  obtain ⟨reason, broken⟩ := exists_features_withBracket
  have blocked := (commands_act_as_on_list withBracket .features).2.2.2.2 reason broken
  exact ⟨set, add, insert (-7) 0 (by decide), get, remove one, outside 1 (by decide),
    (refused .null _ rfl).2.1, ⟨fault, unread [] fault empty⟩, ⟨reason, blocked.2 0⟩⟩

end Editor

end FeatureText
