import FeatureText.Proofs.Editor.FeatureList

/-! Documents after a write. What is accepted is checked for its shape only, and the document is
read with brackets around it, so a feature as deep as a value may be is accepted and leaves a
document that cannot be read. As long as numbers can be read again, nothing else does. -/
namespace FeatureText

def Command.writesFeatures : Command → Bool
  | .set .. | .add .. | .insertFeatures .. | .load _ => true
  | _ => false

def Command.rule? : Command → Option CollapseRule
  | .set _ rule | .add _ rule | .insertFeatures _ _ rule | .removeFeature _ rule => some rule
  | _ => none

namespace Editor

/-- The command is accepted, and puts the features in place of the document. -/
inductive Accepts (e : Editor) : Command → List Json → Prop where
  | set {input : Json} {rule : CollapseRule} {new : List Json}
      (accepted : Feature.validated input = .ok new) : Accepts e (.set input rule) new
  | add {input : Json} {rule : CollapseRule} {old new : List Json}
      (accepted : Feature.validated input = .ok new) (read : e.features = .ok old) :
      Accepts e (.add input rule) (old ++ new)
  | insertFeatures {input : Json} {index : Int} {rule : CollapseRule} {old new : List Json}
      (accepted : Feature.validated input = .ok new) (read : e.features = .ok old) :
      Accepts e (.insertFeatures input index rule)
        (insertAt old (insertionIndex index old.length) new)
  | load {text : Text} {new : List Json} (accepted : Feature.readInput text = .ok new) :
      Accepts e (.load text) new

variable {e : Editor} {command : Command} {items written : List Json}

theorem Accepts.exists_write_rule (h : e.Accepts command written) :
    ∃ hidden, (e.execute command).1 =
      e.write written hidden (command.rule?.getD e.defaultRule) := by
  cases h with
  | set accepted => exact ⟨_, congrArg Prod.fst (execute_set accepted _)⟩
  | add accepted read => exact ⟨_, congrArg Prod.fst (execute_add accepted read _)⟩
  | insertFeatures accepted read =>
    exact ⟨_, congrArg Prod.fst (execute_insertFeatures accepted read rfl _)⟩
  | load accepted => exact ⟨e.hidden, congrArg Prod.fst (execute_load accepted)⟩

theorem Accepts.exists_write (h : e.Accepts command written) :
    ∃ hidden rule, (e.execute command).1 = e.write written hidden rule := by
  obtain ⟨hidden, after⟩ := h.exists_write_rule
  exact ⟨hidden, _, after⟩

/-- A write that is not refused is accepted. -/
theorem exists_accepts (writes : command.writesFeatures)
    (succeeds : ∀ reason, (e.execute command).2 ≠ .refused reason) :
    ∃ written, e.Accepts command written := by
  cases command with
  | set input rule =>
    cases accepted : Feature.validated input with
    | error reason =>
      exact absurd (congrArg Prod.snd (execute_of_not_accepted accepted rule).1) (succeeds reason)
    | ok new => exact ⟨new, .set accepted⟩
  | add input rule =>
    cases accepted : Feature.validated input with
    | error reason =>
      exact absurd (congrArg Prod.snd (execute_of_not_accepted accepted rule).2.1) (succeeds reason)
    | ok new =>
      cases read : e.features with
      | error reason =>
        exact absurd (congrArg Prod.snd (execute_of_not_readable read accepted rule).1)
          (succeeds reason)
      | ok old => exact ⟨_, .add accepted read⟩
  | insertFeatures input index rule =>
    cases accepted : Feature.validated input with
    | error reason =>
      have refused := (execute_of_not_accepted (e := e) accepted rule).2.2 index
      exact absurd (congrArg Prod.snd refused) (succeeds reason)
    | ok new =>
      cases read : e.features with
      | error reason =>
        exact absurd (congrArg Prod.snd ((execute_of_not_readable read accepted rule).2 index))
          (succeeds reason)
      | ok old => exact ⟨_, .insertFeatures accepted read⟩
  | load text =>
    cases accepted : Feature.readInput text with
    | error reason =>
      exact absurd (congrArg Prod.snd (execute_load_of_not_read accepted)) (succeeds reason)
    | ok new => exact ⟨new, .load accepted⟩
  | _ => cases writes

theorem features_write_of_readable (e : Editor)
    (readable : ∀ feature ∈ written, feature.HasReadableNumbers)
    (room : ∀ feature ∈ written, feature.depth < Stage.depthLimit) (hidden : HiddenSet)
    (rule : CollapseRule) :
    (e.write written hidden rule).features =
      .ok (written.map fun feature => feature.reread.merged) := by
  rw [features_eq_ok_iff, text_of_buffer (buffer_write ..)]
  exact parseFeatures_formatFeatures_reread _ readable room

theorem exists_features_write_eq_error (e : Editor)
    (readable : ∀ feature ∈ written, feature.HasReadableNumbers)
    (deep : ∃ feature ∈ written, Stage.depthLimit ≤ feature.depth) (hidden : HiddenSet)
    (rule : CollapseRule) :
    ∃ place, (e.write written hidden rule).features =
      .error (.invalidDocument ⟨.tooDeep, place⟩) := by
  obtain ⟨place, unread⟩ :=
    exists_parseFeatures_formatFeatures_eq_error e.options.indentWidth readable deep
  refine ⟨place, ?_⟩
  rw [features, text_of_buffer (buffer_write ..), unread]

theorem getAll_of_error {reason : FeatureError} (unread : e.features = .error reason) :
    e.getAll = [] := by
  rw [getAll, unread]

theorem features_eq_error_iff {reason : Misreading} :
    e.features = .error (.invalidDocument reason) ↔
      parseFeatures e.buffer.text = .error reason := by
  unfold Editor.features
  cases parseFeatures e.buffer.text <;> simp

/-- A document that can be read is never told of as misread. -/
theorem emit_ne_misread (read : e.features = .ok items) (reason : Misreading) (text : Text) :
    e.emit.2 ≠ .misread reason text := by
  intro misread
  have parsed := features_eq_ok_iff.mp read
  simp only [emit, publish, review, parsed] at misread
  split at misread <;> cases misread

theorem emit_of_error {reason : Misreading}
    (unread : e.features = .error (.invalidDocument reason)) :
    e.emit.2 = .misread reason e.buffer.text := by
  have parsed := features_eq_error_iff.mp unread
  simp only [emit, publish, review, parsed]

/-- A write that succeeds leaves a readable document exactly if no feature in it is nested more than
126 deep. -/
theorem write_is_readable_iff_shallow (writes : command.writesFeatures)
    (succeeds : ∀ reason, (e.execute command).2 ≠ .refused reason) :
    ∃ written, e.Accepts command written ∧
      ((∀ feature ∈ written, feature.HasReadableNumbers) →
        ((∀ feature ∈ written, feature.depth ≤ 126) →
          (∃ items, (e.execute command).1.features = .ok items) ∧
          (e.execute command).1.getAll.length = written.length ∧
          ∀ reason text, (e.execute command).1.emit.2 ≠ .misread reason text) ∧
        ((∃ feature ∈ written, 126 < feature.depth) →
          (e.execute command).1.getAll = [] ∧
          ∃ place,
            (e.execute command).1.features = .error (.invalidDocument ⟨.tooDeep, place⟩) ∧
            (e.execute command).1.emit.2 =
              .misread ⟨.tooDeep, place⟩ (e.execute command).1.buffer.text)) := by
  obtain ⟨written, accepts⟩ := exists_accepts writes succeeds
  obtain ⟨hidden, rule, after⟩ := accepts.exists_write
  refine ⟨written, accepts, fun readable => ?_⟩
  rw [after]
  constructor
  · intro shallow
    have read := features_write_of_readable e readable
      (fun feature hf => Nat.lt_succ_of_le (shallow feature hf)) hidden rule
    refine ⟨⟨_, read⟩, ?_, emit_ne_misread read⟩
    rw [getAll_of_features read, List.length_map]
  · intro deep
    obtain ⟨place, unread⟩ := exists_features_write_eq_error e readable deep hidden rule
    exact ⟨getAll_of_error unread, place, unread, emit_of_error unread⟩

theorem write_is_readable_iff_shallow_withFeature :
    (withFeature.execute (.add (numbered 2) .features)).1.getAll.length = 2 ∧
      ∀ reason text,
        (withFeature.execute (.add (numbered 2) .features)).1.emit.2 ≠ .misread reason text := by
  have exact : ∀ n, 0 ≤ n ∧ n < 100 → (numbered n).HasReadableNumbers := fun n small =>
    (hasExactNumbers_numbered small).hasReadableNumbers
  have accepted : Feature.validated (numbered 2) = .ok [numbered 2] := rfl
  have succeeds : ∀ reason,
      (withFeature.execute (.add (numbered 2) .features)).2 ≠ .refused reason := by
    rw [execute_add accepted features_withFeature]
    nofun
  have writes : Command.writesFeatures (.add (numbered 2) .features) := rfl
  obtain ⟨written, accepts, known⟩ := write_is_readable_iff_shallow writes succeeds
  cases accepts with
  | @add input rule old new other read =>
    obtain rfl := Except.ok.inj (accepted.symm.trans other)
    obtain rfl := Except.ok.inj (features_withFeature.symm.trans read)
    obtain ⟨shallow, -⟩ := known (by simp [exact])
    obtain ⟨-, count, told⟩ := shallow (by decide)
    exact ⟨count, told⟩

def nested : Nat → Json
  | 0 => .array []
  | depth + 1 => .array [nested depth]

def nestedFeature (depth : Nat) : Json :=
  .object
    [("type".toList, .text Feature.typeName), ("geometry".toList, .null),
     ("properties".toList, .object [(['a'], nested depth)])]

theorem depth_nestedFeature (depth : Nat) : (nestedFeature depth).depth = depth + 3 := by
  have inner : (nested depth).depth = depth + 1 := by
    induction depth with
    | zero => rfl
    | succ depth ih => simp [nested, Json.depth, Json.depthOfItems, ih]
  simp [nestedFeature, Json.depth, Json.depthOfMembers, inner]

theorem hasExactNumbers_nestedFeature (depth : Nat) : (nestedFeature depth).HasExactNumbers := by
  have inner : (nested depth).HasExactNumbers := by
    induction depth with
    | zero => simp [nested, Json.hasExactNumbers_array_iff]
    | succ depth ih => simpa [nested, Json.hasExactNumbers_array_iff] using ih
  simp [nestedFeature, Json.hasExactNumbers_object_iff, Json.hasExactNumbers_null,
    Json.hasExactNumbers_text, inner]

theorem hasDistinctNames_nestedFeature (depth : Nat) :
    (nestedFeature depth).HasDistinctNames := by
  have inner : (nested depth).HasDistinctNames := by
    induction depth with
    | zero => decide
    | succ depth ih => simpa [nested, Json.hasDistinctNames_array_iff] using ih
  have properties : (Json.object [(['a'], nested depth)]).HasDistinctNames :=
    Json.hasDistinctNames_object_iff.mpr ⟨by simp, by simpa using inner⟩
  have names : ["type".toList, "geometry".toList, "properties".toList].Nodup := by decide
  refine Json.hasDistinctNames_object_iff.mpr ⟨names, ?_⟩
  simp only [List.forall_mem_cons]
  exact ⟨by decide, by decide, properties, List.forall_mem_nil _⟩

theorem readInput_nestedFeature {depth : Nat} (room : depth ≤ 124) :
    Feature.readInput (nestedFeature depth).compact = .ok [nestedFeature depth] := by
  have parsed : Json.parse (nestedFeature depth).compact = .ok (nestedFeature depth) := by
    refine Json.parse_eq_ok_iff.mpr ⟨nestedFeature depth,
      Json.spelled_compact (hasExactNumbers_nestedFeature depth), ?_,
      Json.merged_eq_self (hasDistinctNames_nestedFeature depth)⟩
    rw [depth_nestedFeature]
    exact Nat.add_le_add_right room 3
  rw [Feature.readInput, parsed]
  rfl

theorem nestedFeature_is_loaded_unreadable :
    ∃ e', (Editor.new .default .still).execute (.load (nestedFeature 124).compact) =
        (e', .count 1) ∧
      e'.getAll = [] ∧ ∃ place, e'.emit.2 = .misread ⟨.tooDeep, place⟩ e'.buffer.text := by
  have readable : ∀ feature ∈ [nestedFeature 124], feature.HasReadableNumbers := by
    simpa using (hasExactNumbers_nestedFeature 124).hasReadableNumbers
  have deep : ∃ feature ∈ [nestedFeature 124], Stage.depthLimit ≤ feature.depth :=
    ⟨_, List.mem_singleton_self _, (depth_nestedFeature 124).ge⟩
  refine ⟨_, execute_load (readInput_nestedFeature (Nat.le_refl _)), ?_⟩
  obtain ⟨place, unread⟩ := exists_features_write_eq_error (Editor.new .default .still) readable
    deep (Editor.new .default .still).hidden (Editor.new .default .still).defaultRule
  exact ⟨getAll_of_error unread, place, emit_of_error unread⟩

end Editor

end FeatureText
