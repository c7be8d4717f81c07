import FeatureText.Proofs.Editor.Current
import FeatureText.Proofs.Editor.KeyList
import FeatureText.Proofs.Editor.Outcome
import FeatureText.Proofs.Editor.Readable
import FeatureText.Proofs.Editor.Visibility
import FeatureText.Proofs.Feature.Rows

/-! What rules collapse. A write expands all nodes and then collapses the outermost ones that its
rule picks; coordinates are collapsed in addition to what is. In both cases the rule decides by the
keys and the brackets of the nodes, as long as their numbers are their own. -/
namespace FeatureText

/-- A rule for features that stand in some ranges picks one of the nodes. -/
def CollapseRule.Picks (nodes : List Node) (ranges : List FeatureRange) (written : List Json)
    (n : Node) : CollapseRule → Prop
  | keys ks => n.IsOutermost nodes ks
  | features => n.IsOutermost nodes [rootKey]
  | perFeature choose => ∃ r ∈ ranges, ∃ feature, written[r.index]? = some feature ∧
      n.IsOutermost nodes (choose feature r.index) ∧
      r.startLine ≤ n.start.line ∧ n.stop.line ≤ r.stopLine
  | unchanged => False

namespace Outline

variable {o : Outline} {n : Node} {rule : CollapseRule}

theorem isCollapsed_perFeature (distinct : (o.nodes.map Node.id).Nodup) (h : n ∈ o.nodes)
    (choose : Json → Nat → List Text) (ranges : List FeatureRange) (written : List Json) :
    ((CollapseRule.perFeature choose).apply o ranges written).isCollapsed n.id ↔
      o.isCollapsed n.id ∨ ∃ r ∈ ranges, ∃ feature, written[r.index]? = some feature ∧
        n ∈ o.outermost (choose feature r.index) ∧
        r.startLine ≤ n.start.line ∧ n.stop.line ≤ r.stopLine := by
  induction ranges generalizing o with
  | nil => simp [CollapseRule.apply]
  | cons r ranges ih =>
    rw [CollapseRule.apply, List.foldl_cons]
    cases found : written[r.index]? with
    | none =>
      refine (ih distinct h).trans (or_congr_right ?_)
      simp [found]
    | some feature =>
      let first := (o.collapseWithin (choose feature r.index) r.startLine r.stopLine).1
      have refolds : o.Refolds first := (o.folds_collapseEach _).refolds
      have rest := ih (o := first) (refolds.nodes ▸ distinct) (refolds.nodes ▸ h)
      refine rest.trans ?_
      simp only [first, isCollapsed_collapseWithin distinct h, refolds.outermost, or_assoc]
      refine or_congr_right ?_
      simp [found]

theorem isCollapsed_apply (distinct : (o.nodes.map Node.id).Nodup) (h : n ∈ o.nodes)
    (picks : ∀ keys, n ∈ o.outermost keys ↔ n.IsOutermost o.nodes keys)
    (ranges : List FeatureRange) (written : List Json) :
    (rule.apply o.expandAll ranges written).isCollapsed n.id ↔
      rule.Picks o.nodes ranges written n := by
  have expanded := o.refolds_expandAll
  rw [← expanded.nodes] at distinct h
  have before := o.not_isCollapsed_expandAll n.id
  have outermost (keys : List Text) :
      (o.expandAll.collapseOutermost keys).1.isCollapsed n.id ↔ n.IsOutermost o.nodes keys := by
    rw [isCollapsed_collapseOutermost distinct h, or_iff_right before, expanded.outermost]
    exact picks keys
  cases rule with
  | keys ks => exact outermost ks
  | features => exact outermost [rootKey]
  | perFeature choose =>
    rw [isCollapsed_perFeature distinct h, or_iff_right before]
    simp only [expanded.outermost, picks]
    rfl
  | unchanged => exact iff_of_false before id

end Outline

/-- The call was not refused, and there was what it was to remove. -/
def Answer.isSuccess : Answer → Bool
  | .refused _ | .feature none => false
  | _ => true

namespace Editor

/-- The command finds all that it needs, and puts the features in place of the document. -/
inductive Rewrites (e : Editor) : Command → List Json → Prop where
  | accepted {command : Command} {written : List Json} (h : e.Accepts command written) :
      Rewrites e command written
  | removed {index : Int} {rule : CollapseRule} {old : List Json} {place : Nat}
      (read : e.features = .ok old) (found : resolveIndex? index old.length = some place) :
      Rewrites e (.removeFeature index rule) (old.eraseIdx place)

variable {start e : Editor} {command : Command} {rule : CollapseRule} {written : List Json}

theorem Rewrites.exists_write (h : e.Rewrites command written)
    (given : command.rule? = some rule) :
    ∃ hidden, (e.execute command).1 = e.write written hidden rule := by
  cases h with
  | accepted h =>
    obtain ⟨hidden, after⟩ := h.exists_write_rule
    rw [given] at after
    exact ⟨hidden, after⟩
  | removed read found =>
    cases given
    exact ⟨_, congrArg Prod.fst (execute_removeFeature read found rule)⟩

theorem rewrites_set_iff {input : Json} :
    e.Rewrites (.set input rule) written ↔ Feature.validated input = .ok written := by
  constructor
  · rintro (⟨⟨accepted⟩⟩ | ⟨⟩)
    exact accepted
  · exact fun accepted => .accepted (.set accepted)

theorem exists_rewrites (given : command.rule? = some rule)
    (success : (e.execute command).2.isSuccess) : ∃ written, e.Rewrites command written := by
  have succeeds (reason : FeatureError) : (e.execute command).2 ≠ .refused reason := by
    intro refused
    rw [refused] at success
    cases success
  cases command with
  | set | add | insertFeatures =>
    obtain ⟨written, h⟩ := exists_accepts rfl succeeds
    exact ⟨written, .accepted h⟩
  | removeFeature index rule =>
    cases read : e.features with
    | error reason =>
      have refused := execute_removeFeature_of_not_readable read index rule
      exact absurd (congrArg Prod.snd refused) (succeeds reason)
    | ok old =>
      cases found : resolveIndex? index old.length with
      | none =>
        rw [execute_removeFeature_of_none read found] at success
        cases success
      | some place => exact ⟨_, .removed read found⟩
  | _ => cases given

/-- What is collapsed after a write is what its rule picks, whatever was collapsed before. -/
theorem isCollapsed_write {features : List Json} {hidden : HiddenSet} {n : Node}
    (given : rule ≠ .unchanged)
    (distinct : ((e.write features hidden rule).outline.nodes.map Node.id).Nodup)
    (hn : n ∈ (e.write features hidden rule).outline.nodes) :
    (e.write features hidden rule).isCollapsed n.id ↔
      rule.Picks (e.write features hidden rule).outline.nodes
        (e.write features hidden rule).ranges features n := by
  let o := (e.outline.rebuild
    (splitLines (formatFeatures e.options.indentWidth features))).1
  have refolds : o.Refolds (e.write features hidden rule).outline :=
    refolds_write e features hidden given
  have balanced := Outline.isBalanced_formatFeatures e.options.indentWidth features
  rw [isCollapsed_of_mem_nodes hn]
  rw [refolds.nodes] at distinct hn ⊢
  rw [outline_write e features hidden given]
  exact Outline.isCollapsed_apply distinct hn
    (fun _ => Outline.mem_outermost_iff_isOutermost balanced distinct hn) _ _

theorem Synced.ranges_write {features : List Json} {hidden : HiddenSet}
    (h : Synced (e.write features hidden rule)) :
    (e.write features hidden rule).ranges =
      FeatureRange.ofLines (splitLines (formatFeatures e.options.indentWidth features)) := by
  have lines : (e.write features hidden rule).buffer.lines =
      splitLines (formatFeatures e.options.indentWidth features) := by
    rw [buffer_write]
    rfl
  have balanced : (e.write features hidden rule).outline.balanced := by
    rw [h.balanced, lines]
    exact Outline.isBalanced_formatFeatures _ _
  rw [h.ranges, if_pos balanced, lines]

theorem collapseCoordinates_eq (readable : e.isReadable) :
    let folded := e.outline.collapseOutermost [Options.coordinatesKey]
    e.collapseCoordinates.1.buffer = e.buffer ∧ e.collapseCoordinates.1.outline = folded.1 ∧
      e.collapseCoordinates.2 = folded.2 := by
  intro folded
  rw [collapseCoordinates, if_pos readable]
  split
  · next none =>
    have same : folded.1 = e.outline :=
      Outline.collapseEach_eq_self (congrArg Prod.snd none)
    exact ⟨rfl, same.symm, (congrArg Prod.snd none).symm⟩
  · next some =>
    exact ⟨rfl, (congrArg Prod.fst some).symm, (congrArg Prod.snd some).symm⟩

theorem isReadable_iff : e.isReadable ↔ ∃ items, e.features = .ok items := by
  simp only [isReadable, features_eq_ok_iff]
  cases parseFeatures e.buffer.text <;> simp

theorem IsScanned.mem_outermost_iff (scanned : e.IsScanned)
    (balanced : Bracket.isBalanced e.buffer.lines)
    (distinct : (e.outline.nodes.map Node.id).Nodup) {n : Node} (hn : n ∈ e.outline.nodes)
    (keys : List Text) :
    n ∈ e.outline.outermost keys ↔ n.IsOutermost e.outline.nodes keys := by
  obtain ⟨o, refolds⟩ := scanned
  rw [refolds.outermost]
  rw [refolds.nodes] at distinct hn ⊢
  exact Outline.mem_outermost_iff_isOutermost balanced distinct hn

theorem Reachable.isCollapsed_collapseCoordinates (h : e.Reachable) (readable : e.isReadable)
    (distinct : (e.collapseCoordinates.1.outline.nodes.map Node.id).Nodup) :
    let after := e.collapseCoordinates.1
    after.buffer = e.buffer ∧ after.outline.nodes = e.outline.nodes ∧
      (∀ n ∈ e.outline.nodes, after.isCollapsed n.id ↔
        e.isCollapsed n.id ∨ n.IsOutermost e.outline.nodes [Options.coordinatesKey]) ∧
      e.collapseCoordinates.2 =
        e.outline.nodes.countP fun n => after.isCollapsed n.id && !e.isCollapsed n.id := by
  intro after
  obtain ⟨buffer, outline, count⟩ := collapseCoordinates_eq readable
  have nodes : after.outline.nodes = e.outline.nodes := by
    rw [outline]
    exact (e.outline.folds_collapseOutermost _).refolds.nodes
  replace distinct : (e.outline.nodes.map Node.id).Nodup := nodes ▸ distinct
  obtain ⟨items, read⟩ := isReadable_iff.mp readable
  have balanced : Bracket.isBalanced e.buffer.lines :=
    h.synced.balanced ▸ h.synced.outline_balanced read
  refine ⟨buffer, nodes, fun n hn => ?_, ?_⟩
  · rw [isCollapsed_of_mem_nodes (nodes ▸ hn), isCollapsed_of_mem_nodes hn, outline,
      Outline.isCollapsed_collapseOutermost distinct hn,
      h.isScanned.mem_outermost_iff balanced distinct hn]
  · rw [count, Outline.snd_collapseOutermost distinct, ← outline]
    refine List.countP_congr fun n hn => ?_
    rw [isCollapsed_of_mem_nodes (nodes ▸ hn), isCollapsed_of_mem_nodes hn]

/-- As long as numbers do not run out, commands that are given a rule collapse just what it picks of
the features that they write. Coordinates are collapsed in addition to what is. -/
theorem rules_collapse_outermost (new : start.IsNew) (commands : List Command) (command : Command)
    (room : start.outline.nodes.length +
      (start.mintedOver (commands ++ [command])).length < Node.idLimit) :
    let e := start.run commands
    let after := (e.execute command).1
    (∀ rule, command.rule? = some rule → (e.execute command).2.isSuccess →
      ∃ written, e.Rewrites command written ∧
        after.buffer.text = formatFeatures e.options.indentWidth written ∧
        (rule ≠ .unchanged → ∀ n ∈ after.outline.nodes,
          (after.isCollapsed n.id ↔ rule.Picks after.outline.nodes after.ranges written n)) ∧
        ((∀ feature ∈ written, feature.isObject) →
          after.ranges.map FeatureRange.index = List.range written.length ∧
          after.ranges.map (fun r => (r.startLine, r.stopLine)) =
            Feature.rows e.options.indentWidth 0 written)) ∧
    (command = .collapseCoordinates →
      (e.isReadable →
        after.buffer = e.buffer ∧ after.outline.nodes = e.outline.nodes ∧
        (∀ n ∈ e.outline.nodes, after.isCollapsed n.id ↔
          e.isCollapsed n.id ∨ n.IsOutermost e.outline.nodes [Options.coordinatesKey]) ∧
        (e.execute command).2 = .count (e.outline.nodes.countP fun n =>
          after.isCollapsed n.id && !e.isCollapsed n.id)) ∧
      (e.isReadable = false → e.execute command = (e, .count 0))) := by
  intro e after
  have reachable : e.Reachable := new.reachable.run commands
  have distinct : (after.outline.nodes.map Node.id).Nodup := by
    have sound := new.sound_run room
    rw [run_append, run_singleton] at sound
    exact sound.ids.sublist (after.outline.nodes_sublist_known.map Node.id)
  refine ⟨fun rule given success => ?_, ?_⟩
  · obtain ⟨written, rewrites⟩ := exists_rewrites given success
    obtain ⟨hidden, wrote⟩ := rewrites.exists_write given
    have synced : Synced after := (reachable.step command).synced
    refine ⟨written, rewrites, ?_, fun picking n hn => ?_, fun objects => ?_⟩
    · exact text_of_buffer ((congrArg Editor.buffer wrote).trans (buffer_write ..))
    · simp only [after, wrote] at distinct hn ⊢
      exact isCollapsed_write picking distinct hn
    · simp only [after, wrote] at synced ⊢
      rw [synced.ranges_write]
      exact FeatureRange.ofLines_formatFeatures _ objects
  · rintro rfl
    refine ⟨fun readable => ?_, fun unreadable => ?_⟩
    · obtain ⟨buffer, nodes, collapsed, count⟩ :=
        reachable.isCollapsed_collapseCoordinates readable distinct
      exact ⟨buffer, nodes, collapsed, congrArg Answer.count count⟩
    · change andAnswer .count e.collapseCoordinates = _
      rw [collapseCoordinates, if_neg (ne_true_of_eq_false unreadable)]
      rfl

def withCoordinates : Editor :=
  ofText .default .still (formatFeatures 2 [owner Options.coordinatesKey])

theorem isReadable_withCoordinates : withCoordinates.isReadable := by
  refine isReadable_iff.mpr ⟨_, features_ofText .default .still 2 ⟨by decide, ?_, by decide⟩⟩
  simp [Json.HasExactNumbers, owner, Json.parts, Json.partsOfMembers]

def keysByPlace (_ : Json) : Nat → List Text
  | 0 => ["properties".toList]
  | _ => [rootKey]

theorem rules_collapse_outermost_twoOwners :
    let write := Command.set (.array twoOwners) (.perFeature keysByPlace)
    let after := ((withCoordinates.run [.collapseAll]).execute write).1
    withCoordinates.IsNew ∧
      withCoordinates.outline.nodes.length +
        (withCoordinates.mintedOver ([.collapseAll] ++ [write])).length < Node.idLimit ∧
      withCoordinates.outline.nodes.length +
        (withCoordinates.mintedOver ([] ++ [.collapseCoordinates])).length < Node.idLimit ∧
      (∀ n ∈ after.outline.nodes, after.isCollapsed n.id ↔
        (CollapseRule.perFeature keysByPlace).Picks after.outline.nodes after.ranges twoOwners n) ∧
      after.ranges.map (fun r => (r.startLine, r.stopLine)) = [(0, 8), (9, 17)] ∧
      after.outline.nodes.map (fun n => (n.key, after.isCollapsed n.id)) =
        [(rootKey, false), ("properties".toList, true), (['a'], false),
         (rootKey, true), ("properties".toList, false), (['\\', '"'], false)] ∧
      (withCoordinates.execute .collapseCoordinates).2 = .count 1 := by
  intro write after
  have new : withCoordinates.IsNew := ⟨_, _, .inr ⟨_, rfl⟩⟩
  have valid : ∀ feature ∈ twoOwners, Schema.IsValid feature := by
    simp [twoOwners, isValid_owner]
  have accepted := Feature.validated_array valid
  have room : withCoordinates.outline.nodes.length +
      (withCoordinates.mintedOver ([.collapseAll] ++ [write])).length < Node.idLimit := by
    decide +kernel
  have little : withCoordinates.outline.nodes.length +
      (withCoordinates.mintedOver ([] ++ [.collapseCoordinates])).length < Node.idLimit := by
    decide +kernel
  obtain ⟨rules, -⟩ := rules_collapse_outermost new [.collapseAll] write room
  obtain ⟨-, added⟩ := rules_collapse_outermost new [] .collapseCoordinates little
  obtain ⟨written, rewrites, -, picked, rows⟩ := rules _ rfl (by
    rw [execute_set accepted]
    rfl)
  obtain rfl : twoOwners = written :=
    Except.ok.inj (accepted.symm.trans (rewrites_set_iff.mp rewrites))
  rw [run_nil] at added
  obtain ⟨-, -, -, count⟩ := (added rfl).1 isReadable_withCoordinates
  have chosen : CollapseRule.perFeature keysByPlace ≠ .unchanged := by simp
  refine ⟨new, room, little, picked chosen, ?_, by decide +kernel, ?_⟩
  · exact (rows (by decide)).2.trans (by decide +kernel)
  · exact count.trans (congrArg Answer.count (by decide +kernel))

theorem options_write (e : Editor) (features : List Json) (hidden : HiddenSet)
    (rule : CollapseRule) : (e.write features hidden rule).options = e.options := by
  rw [write]
  cases rule <;> exact (silent_recompute _).options

theorem numbered_write (e : Editor) (features : List Json) (hidden : HiddenSet)
    (given : rule ≠ .unchanged) :
    let numbered := e.outline.numbered (splitLines (formatFeatures e.options.indentWidth features))
    let after := (e.write features hidden rule).outline
    after.nodes = numbered.1 ∧ after.known = numbered.1 ∧ after.fresh = numbered.2 := by
  intro numbered after
  have balanced := Outline.isBalanced_formatFeatures e.options.indentWidth features
  have refolds := refolds_write e features hidden given
  rw [refolds.nodes, refolds.known, refolds.fresh, e.outline.rebuild_of_balanced balanced]
  exact ⟨rfl, rfl, rfl⟩

theorem isCollapsed_write_of_outermost {features : List Json} {hidden : HiddenSet} {n : Node}
    (h : n ∈ (e.write features hidden .features).outline.outermost [rootKey]) :
    (e.write features hidden .features).isCollapsed n.id := by
  let o := (e.outline.rebuild
    (splitLines (formatFeatures e.options.indentWidth features))).1.expandAll
  have outline : (e.write features hidden .features).outline =
      (o.collapseOutermost [rootKey]).1 := outline_write e features hidden nofun
  have there := Outline.isSome_node? (Outline.outermost_subset _ _ h)
  rw [isCollapsed, there, Bool.true_and]
  rw [outline, (o.refolds_collapseOutermost _).node?] at there
  rw [outline, (o.refolds_collapseOutermost _).outermost] at h
  rw [outline, Outline.collapseOutermost, Outline.isCollapsed_collapseEach]
  exact .inr ⟨List.mem_map_of_mem h, there⟩

def bare : Json :=
  .object
    [("type".toList, .text Feature.typeName), ("geometry".toList, .null),
     ("properties".toList, .null)]

def entryOfFeature (last : Nat) : Entry := ⟨⟨rootKey, .brace, ⟨0, 0⟩, ⟨last, 0⟩⟩, 0⟩

def entryOfProperties : Entry := ⟨⟨"properties".toList, .brace, ⟨3, 16⟩, ⟨5, 2⟩⟩, 1⟩

theorem validated_bare : Feature.validated bare = .ok [bare] := rfl

theorem validated_numbered : Feature.validated (numbered 1) = .ok [numbered 1] := rfl

theorem scan_bare :
    Outline.scan (splitLines (formatFeatures 2 [bare])) = [entryOfFeature 4] := by
  decide +kernel

theorem scan_numbered :
    Outline.scan (splitLines (formatFeatures 2 [numbered 1])) =
      [entryOfFeature 6, entryOfProperties] := by
  decide +kernel

/-- There is one node, number 0, and the number for the next one is told. -/
structure HoldsBare (e : Editor) (fresh : NodeId) : Prop where
  options : e.options = .default
  known : e.outline.known = [.ofEntry 0 0 [] (entryOfFeature 4)]
  fresh : e.outline.fresh = fresh

structure HoldsNumbered (e : Editor) (inner fresh : NodeId) : Prop where
  options : e.options = .default
  nodes : e.outline.nodes =
    [.ofEntry 0 0 [] (entryOfFeature 6), .ofEntry inner 0 [0] entryOfProperties]
  known : e.outline.known = e.outline.nodes
  fresh : e.outline.fresh = fresh

theorem HoldsBare.write {fresh : NodeId} (h : e.HoldsBare fresh) (hidden : HiddenSet) :
    (e.write [numbered 1] hidden .features).HoldsNumbered fresh
      ((fresh + 1) % Node.idLimit) := by
  have given : CollapseRule.features ≠ .unchanged := nofun
  obtain ⟨nodes, known, next⟩ := e.numbered_write [numbered 1] hidden given
  have same := known.trans nodes.symm
  rw [Outline.numbered, h.known, h.fresh, h.options, Options.default, scan_numbered] at nodes next
  exact ⟨(options_write ..).trans h.options, nodes, same, next⟩

theorem HoldsNumbered.write {inner fresh : NodeId} (h : e.HoldsNumbered inner fresh)
    (hidden : HiddenSet) : (e.write [bare] hidden .features).HoldsBare fresh := by
  have given : CollapseRule.features ≠ .unchanged := nofun
  obtain ⟨-, known, next⟩ := e.numbered_write [bare] hidden given
  rw [Outline.numbered, h.known, h.nodes, h.fresh, h.options, Options.default, scan_bare]
    at known next
  exact ⟨(options_write ..).trans h.options, known, next⟩

def comeAndGo : List Command := [.set (numbered 1) .features, .set bare .features]

theorem HoldsBare.run_comeAndGo {fresh : NodeId} (h : e.HoldsBare fresh) :
    (e.run comeAndGo).HoldsBare ((fresh + 1) % Node.idLimit) := by
  have came : (e.execute (.set (numbered 1) .features)).1.HoldsNumbered fresh
      ((fresh + 1) % Node.idLimit) := by
    rw [execute_set validated_numbered]
    exact h.write _
  change ((e.execute (.set (numbered 1) .features)).1.execute (.set bare .features)).1.HoldsBare _
  rw [execute_set validated_bare]
  exact came.write _

/-- Each time that a node comes it has the next number, and after the last one they start again. -/
theorem HoldsBare.run_replicate {fresh : NodeId} (h : e.HoldsBare (fresh % Node.idLimit))
    (times : Nat) :
    (e.run (List.replicate times comeAndGo).flatten).HoldsBare
      ((fresh + times) % Node.idLimit) := by
  induction times generalizing e fresh with
  | zero => exact h
  | succ times ih =>
    have once := h.run_comeAndGo
    rw [Nat.mod_add_mod] at once
    rw [List.replicate_succ, List.flatten_cons, run_append, Nat.add_comm times, ← Nat.add_assoc]
    exact ih once

theorem HoldsBare.exists_collapsed (h : e.HoldsBare 0) :
    let after := (e.execute (.set (numbered 1) .features)).1
    ∃ n ∈ after.outline.nodes, after.isCollapsed n.id ∧
      ¬CollapseRule.features.Picks after.outline.nodes after.ranges [numbered 1] n := by
  intro after
  have wrote : after = e.write [numbered 1] e.hidden .features :=
    congrArg Prod.fst (execute_set validated_numbered .features)
  have holds := h.write e.hidden
  have outer : .ofEntry 0 0 [] (entryOfFeature 6) ∈
      (e.write [numbered 1] e.hidden .features).outline.outermost [rootKey] := by
    rw [Outline.outermost, holds.nodes]
    decide
  have collapsed := isCollapsed_write_of_outermost outer
  rw [wrote, holds.nodes]
  refine ⟨_, List.mem_cons_of_mem _ (List.mem_singleton_self _), collapsed, ?_⟩
  rintro ⟨named, -⟩
  exact absurd named (by decide)

def withBare : Editor := ofText .default .still (formatFeatures 2 [bare])

theorem holdsBare_withBare : withBare.HoldsBare 1 where
  options := by
    rw [withBare, ofText, (silent_recompute _).options, new]
    exact (silent_recompute _).options
  known := by decide +kernel
  fresh := by decide +kernel

/-- When all numbers have been given out, the next new node gets one that is still in use. -/
theorem reused_number_collapses_inner_node :
    let set := Command.set (numbered 1) .features
    let e := withBare.run (List.replicate (Node.idLimit - 1) comeAndGo).flatten
    let after := (e.execute set).1
    withBare.IsNew ∧ (e.execute set).2.isSuccess ∧ e.Rewrites set [numbered 1] ∧
      ∃ n ∈ after.outline.nodes, after.isCollapsed n.id ∧
        ¬CollapseRule.features.Picks after.outline.nodes after.ranges [numbered 1] n := by
  have first : withBare.HoldsBare (1 % Node.idLimit) := holdsBare_withBare
  have holds := first.run_replicate (Node.idLimit - 1)
  have again : (1 + (Node.idLimit - 1)) % Node.idLimit = 0 := by decide
  rw [again] at holds
  refine ⟨⟨_, _, .inr ⟨_, rfl⟩⟩, ?_, rewrites_set_iff.mpr validated_numbered,
    holds.exists_collapsed⟩
  rw [execute_set validated_numbered]
  rfl

end Editor

end FeatureText
