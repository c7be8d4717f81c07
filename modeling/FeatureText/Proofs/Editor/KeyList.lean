import FeatureText.Proofs.Editor.FeatureList
import FeatureText.Proofs.Editor.Numbering
import FeatureText.Proofs.Feature.Valid
import FeatureText.Proofs.Outline.Outermost

/-! Writing with a list of keys. The keys are compared with names as they are printed, so a name
with a character that is escaped is not found under itself. -/
namespace FeatureText

/-- Keys find a container by its printed name as by its name, if no name needs to be escaped. -/
theorem Container.isOutermost_spelling {c : Container}
    (plain : ∀ name ∈ c.name :: c.around, ∀ character ∈ name, Quoted.isPlain character)
    (p : Text → Bool) :
    isOutermost (p ∘ Quoted.spelling) c.name c.around = isOutermost p c.name c.around := by
  obtain ⟨name, around⟩ := List.forall_mem_cons.mp plain
  have same : c.around.map Quoted.spelling = c.around :=
    (List.map_congr_left fun name hn => Quoted.spelling_eq_self (around name hn)).trans
      (List.map_id _)
  rw [← isOutermost_map, same, Quoted.spelling_eq_self name]

namespace Editor

variable {start e : Editor}

theorem isCollapsed_of_mem_nodes {n : Node} (h : n ∈ e.outline.nodes) :
    e.isCollapsed n.id = e.outline.isCollapsed n.id := by
  rw [isCollapsed, Outline.isSome_node? h, Bool.true_and]

theorem outline_write (e : Editor) (features : List Json) (hidden : HiddenSet)
    {rule : CollapseRule} (given : rule ≠ .unchanged) :
    (e.write features hidden rule).outline =
      rule.apply (e.outline.rebuild (splitLines (formatFeatures e.options.indentWidth
        features))).1.expandAll (e.write features hidden rule).ranges features := by
  let written := (e.rewritten features hidden).settle
  have applied := congrArg (fun o => rule.apply o.expandAll written.ranges features)
    (outline_settle (e.rewritten features hidden))
  rw [write_eq]
  cases rule with
  | unchanged => exact absurd rfl given
  | _ => exact applied

theorem refolds_write (e : Editor) (features : List Json) (hidden : HiddenSet)
    {rule : CollapseRule} (given : rule ≠ .unchanged) :
    (e.outline.rebuild (splitLines (formatFeatures e.options.indentWidth features))).1.Refolds
      (e.write features hidden rule).outline := by
  rw [outline_write e features hidden given]
  exact (Outline.refolds_expandAll _).trans (rule.refolds_apply _ _ _)

theorem outline_write_keys (e : Editor) (features : List Json) (hidden : HiddenSet)
    (keys : List Text) :
    (e.write features hidden (.keys keys)).outline =
      ((e.outline.rebuild (splitLines (formatFeatures e.options.indentWidth
        features))).1.expandAll.collapseOutermost keys).1 :=
  outline_write e features hidden nofun

/-- What is collapsed after a write with keys, if nodes have numbers of their own then. -/
theorem map_isCollapsed_write (e : Editor) (features : List Json) (hidden : HiddenSet)
    (keys : List Text)
    (sound : (e.write features hidden (.keys keys)).outline.Sound) :
    let after := e.write features hidden (.keys keys)
    after.outline.nodes.map (fun n => (n.key, n.bracket, n.depth, after.isCollapsed n.id)) =
      (Json.spreads features).map fun c =>
        (c.key, c.bracket, c.depth,
          isOutermost (keys.contains ∘ Quoted.spelling) c.name c.around) := by
  intro after
  have ids := sound.ids.sublist (after.outline.nodes_sublist_known.map Node.id)
  rw [outline_write_keys] at ids
  have live : after.outline.nodes.map
      (fun n => (n.key, n.bracket, n.depth, after.isCollapsed n.id)) =
        after.outline.nodes.map
          (fun n => (n.key, n.bracket, n.depth, after.outline.isCollapsed n.id)) :=
    List.map_congr_left fun n hn => by rw [isCollapsed_of_mem_nodes hn]
  rw [live, outline_write_keys]
  refine Outline.map_isCollapsed_formatFeatures e.options.indentWidth features ?_ keys
  exact (Outline.Refolds.nodes ((Outline.refolds_expandAll _).trans
    (Outline.refolds_collapseOutermost _ keys))) ▸ ids

/-- A list of keys collapses the containers of several lines whose printed name is one of the keys
and that stand in no other with such a name. -/
theorem key_list_collapses_printed_names (new : start.IsNew) (commands : List Command)
    (features : List Json) (keys : List Text)
    (valid : ∀ feature ∈ features, Schema.IsValid feature)
    (room : start.outline.nodes.length + (start.mintedOver
      (commands ++ [.set (.array features) (.keys keys)])).length < Node.idLimit) :
    ∃ after, (start.run commands).execute (.set (.array features) (.keys keys)) = (after, .done) ∧
      after.outline.nodes.map (fun n => (n.key, n.bracket, n.depth, after.isCollapsed n.id)) =
        (Json.spreads features).map (fun c =>
          (c.key, c.bracket, c.depth,
            isOutermost (keys.contains ∘ Quoted.spelling) c.name c.around)) ∧
      (∀ c ∈ Json.spreads features,
        (∀ name ∈ c.name :: c.around, ∀ character ∈ name, Quoted.isPlain character) →
        isOutermost (keys.contains ∘ Quoted.spelling) c.name c.around =
          isOutermost keys.contains c.name c.around) ∧
      ∀ (step indent : Nat) (value : Json), '\n' ∈ value.format step indent ↔ value.isSpread := by
  have done := execute_set (e := start.run commands) (Feature.validated_array valid) (.keys keys)
  have sound := new.sound_run room
  rw [run_append, run_singleton, done] at sound
  exact ⟨_, done, map_isCollapsed_write _ features _ keys sound,
    fun c _ plain => Container.isOutermost_spelling plain keys.contains,
    Json.newline_mem_format_iff⟩

def owner (name : Text) : Json :=
  .object
    [("type".toList, .text Feature.typeName), ("geometry".toList, .null),
     ("properties".toList, .object [(name, .object [(['n'], .null)])])]

theorem isValid_owner (name : Text) : Schema.IsValid (owner name) := by
  have sound : Schema.featureProblems ⟨[], []⟩ (owner name) = [] := rfl
  exact Schema.isValid_of_featureProblems sound

def twoOwners : List Json := [owner ['a'], owner ['"']]

def mixedKeys : List Text := [['a'], ['\\', '"']]

def withOwner : Editor := ofText .default .still (formatFeatures 2 [owner ['a']])

theorem key_list_collapses_printed_names_owner :
    withOwner.IsNew ∧ (∀ feature ∈ twoOwners, Schema.IsValid feature) ∧
      withOwner.outline.nodes.length + (withOwner.mintedOver
        ([.collapseAll] ++ [.set (.array twoOwners) (.keys mixedKeys)])).length < Node.idLimit ∧
      ∃ after, (withOwner.run [.collapseAll]).execute
          (.set (.array twoOwners) (.keys mixedKeys)) = (after, .done) ∧
        after.outline.nodes.map (fun n => (n.key, after.isCollapsed n.id)) =
          [(rootKey, false), ("properties".toList, false), (['a'], true),
           (rootKey, false), ("properties".toList, false), (['\\', '"'], true)] := by
  have new : withOwner.IsNew := ⟨_, _, .inr ⟨_, rfl⟩⟩
  have valid : ∀ feature ∈ twoOwners, Schema.IsValid feature := by
    simp [twoOwners, isValid_owner]
  have room : withOwner.outline.nodes.length + (withOwner.mintedOver
      ([.collapseAll] ++ [.set (.array twoOwners) (.keys mixedKeys)])).length < Node.idLimit := by
    decide +kernel
  obtain ⟨after, done, told, -⟩ :=
    key_list_collapses_printed_names new [.collapseAll] twoOwners mixedKeys valid room
  refine ⟨new, valid, room, after, done, ?_⟩
  have few := congrArg (List.map fun t : Text × Bracket × Nat × Bool => (t.1, t.2.2.2)) told
  rw [List.map_map, List.map_map] at few
  exact few

/-- A name with a quote does not find its container. -/
theorem key_list_misses_escaped_name :
    let name := ['a', '"', 'b']
    let blank := Editor.new .default .still
    blank.Reachable ∧ Schema.IsValid (owner name) ∧ (owner name).depth = 3 ∧
      (Json.spreads [owner name]).map (fun c => isOutermost [name].contains c.name c.around) =
        [false, false, true] ∧
      ∃ after, blank.execute (.set (.array [owner name]) (.keys [name])) = (after, .done) ∧
        after.outline.nodes.map (fun n => after.isCollapsed n.id) = [false, false, false] := by
  intro name blank
  have valid : ∀ feature ∈ [owner name], Schema.IsValid feature :=
    List.forall_mem_singleton.mpr (isValid_owner name)
  have done := execute_set (e := blank) (Feature.validated_array valid) (.keys [name])
  exact ⟨.new _ _, isValid_owner name, by decide, by decide, _, done, by decide +kernel⟩

end Editor

end FeatureText
