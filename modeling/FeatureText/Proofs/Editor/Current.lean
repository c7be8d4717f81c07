import FeatureText.Proofs.Editor.Synced
import FeatureText.Proofs.Feature.Ascending
import FeatureText.Proofs.Outline.Scan

/-! No command leaves anything behind that the lines do not give any more: nodes, feature ranges,
what is hidden of them, and what is shown of every line. The version tells whether the lines may
have changed. -/
namespace FeatureText.Editor

variable {e : Editor}

/-- The nodes come from the lines as they are now, up to folding. -/
def IsScanned (e : Editor) : Prop :=
  ∃ o : Outline, (o.rebuild e.buffer.lines).1.Refolds e.outline

theorem isScanned_recompute (e : Editor) : e.recompute.IsScanned := (derived_recompute e).outline

theorem IsScanned.execute (h : e.IsScanned) (command : Command) :
    (e.execute command).1.IsScanned := by
  rcases (effect_execute e command).state with kept | changed
  · obtain ⟨o, refolds⟩ := h
    exact ⟨o, kept.buffer ▸ refolds.trans kept.outline⟩
  · obtain ⟨_, -, derived⟩ := changed.derived
    exact derived.outline

theorem Reachable.isScanned (h : e.Reachable) : e.IsScanned := by
  induction h with
  | new options clock => exact isScanned_recompute _
  | ofText options clock text => exact isScanned_recompute _
  | step command _ ih => exact ih.execute command

theorem Derived.isAscending {chosen : HiddenSet} (h : Derived chosen e)
    (ascending : chosen.IsAscending) : e.hidden.IsAscending := by
  rw [h.hidden]
  split
  · exact ascending.prune e.ranges
  · exact ascending

theorem isAscending_execute (h : e.hidden.IsAscending) (command : Command) :
    (e.execute command).1.hidden.IsAscending := by
  rcases (effect_execute e command).state with kept | changed
  · rcases kept.hidden with same | ⟨r, -, toggled⟩
    · rwa [same]
    · rw [toggled]
      exact h.toggle r.key
  · obtain ⟨chosen, choice, derived⟩ := changed.derived
    refine derived.isAscending ?_
    rcases choice with rfl | ⟨keys, rfl⟩
    · exact h
    · exact HiddenSet.isAscending_ofKeys keys

theorem isAscending_recompute (h : e.hidden.IsAscending) : e.recompute.hidden.IsAscending :=
  (derived_recompute e).isAscending h

theorem Reachable.isAscending (h : e.Reachable) : e.hidden.IsAscending := by
  have start (options : Options) (clock : Clock) :
      (Editor.new options clock).hidden.IsAscending := isAscending_recompute .nil
  induction h with
  | new options clock => exact start options clock
  | ofText options clock text => exact isAscending_recompute (start options clock)
  | step command _ ih => exact isAscending_execute ih command

theorem version_execute (e : Editor) (command : Command) :
    ((e.execute command).1.version = e.version ∧ (e.execute command).1.buffer = e.buffer) ∨
      (e.execute command).1.version = e.version + 1 :=
  (effect_execute e command).state.imp (fun kept => ⟨kept.version, kept.buffer⟩) Changed.version

/-- All that is derived from the lines is what the lines give now. -/
structure IsCurrent (e : Editor) : Prop where
  lines : e.buffer.lines ≠ []
  unbroken : ∀ line ∈ e.buffer.lines, '\n' ∉ line
  nodes : e.outline.nodes.map Node.entry = Outline.scan e.buffer.lines
  numbers : (e.outline.rebuild e.buffer.lines).1.nodes = e.outline.nodes
  noNodes : Bracket.isBalanced e.buffer.lines = false → e.outline.nodes = []
  ranges : e.ranges =
    if Bracket.isBalanced e.buffer.lines then FeatureRange.ofLines e.buffer.lines else []
  hidden : Bracket.isBalanced e.buffer.lines → ∀ key ∈ e.hidden.keys, ∃ r ∈ e.ranges, r.key = key
  metas : e.metas = View.lineMetas e.buffer.lines e.outline e.ranges e.hidden
  visible : e.visible = View.visibleLines e.buffer.lines e.metas

theorem Synced.isCurrent (h : Synced e) (scanned : e.IsScanned) : e.IsCurrent := by
  obtain ⟨o, refolds⟩ := scanned
  have balanced := h.balanced
  refine ⟨e.buffer.lines_ne_nil, h.buffer, ?_, Outline.nodes_rebuild_of_refolds refolds, ?_, ?_, ?_,
    h.metas, h.visible⟩
  · rw [refolds.nodes, Outline.map_entry_nodes_rebuild]
  · intro broken
    rw [Outline.nodes, balanced, broken]
    rfl
  · rw [← balanced]
    exact h.ranges
  · rw [← balanced]
    exact h.hidden

/-- Whatever is done, the derived parts are up to date after it, and the version has counted at
most one change of the lines, and no change went by without it. -/
theorem commands_leave_nothing_stale (reachable : e.Reachable) :
    e.IsCurrent ∧ ∀ command,
      (e.execute command).1.IsCurrent ∧
      ((e.execute command).1.buffer.lines ≠ e.buffer.lines →
        (e.execute command).1.version = e.version + 1) ∧
      ((e.execute command).1.version = e.version ∨
        (e.execute command).1.version = e.version + 1) := by
  refine ⟨reachable.synced.isCurrent reachable.isScanned, fun command => ⟨?_, ?_, ?_⟩⟩
  · have after := reachable.step command
    exact after.synced.isCurrent after.isScanned
  · intro edited
    rcases version_execute e command with ⟨-, same⟩ | counted
    · exact absurd (congrArg Buffer.lines same) edited
    · exact counted
  · exact (version_execute e command).imp_left And.left

theorem lines_withBracket : withBracket.buffer.lines = [['{']] := by
  rw [withBracket, ofText, buffer_recompute]
  rfl

theorem commands_leave_nothing_stale_withBracket :
    withBracket.IsCurrent ∧ (withBracket.execute .removeAll).1.IsCurrent ∧
      (withBracket.execute .removeAll).1.version = withBracket.version + 1 := by
  have emptied : (withBracket.execute .removeAll).1.buffer.lines = [[]] := by
    rw [execute, removeAll, buffer_settle]
    rfl
  obtain ⟨before, after⟩ := commands_leave_nothing_stale (.ofText .default .still ['{'])
  obtain ⟨current, counted, -⟩ := after .removeAll
  refine ⟨before, current, counted ?_⟩
  have edited : (withBracket.execute .removeAll).1.buffer.lines ≠ withBracket.buffer.lines := by
    rw [emptied, lines_withBracket]
    decide
  exact edited

end FeatureText.Editor
