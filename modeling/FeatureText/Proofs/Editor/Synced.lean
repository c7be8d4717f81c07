import FeatureText.Proofs.Editor.Action
import FeatureText.Proofs.Feature.Hidden

/-! What every command keeps. The lines of the buffer and of all snapshots are unbroken, and what is
derived from the buffer is what the buffer would give now. -/
namespace FeatureText.Editor

structure Synced (e : Editor) : Prop extends Clean e where
  balanced : e.outline.balanced = Bracket.isBalanced e.buffer.lines
  ranges : e.ranges = if e.outline.balanced then FeatureRange.ofLines e.buffer.lines else []
  hidden : e.outline.balanced → ∀ key ∈ e.hidden.keys, ∃ r ∈ e.ranges, r.key = key
  metas : e.metas = View.lineMetas e.buffer.lines e.outline e.ranges e.hidden
  visible : e.visible = View.visibleLines e.buffer.lines e.metas

variable {e e' : Editor} {timeline : Timeline Snapshot} {chosen : HiddenSet}

theorem Derived.synced (h : Derived chosen e) (clean : Clean e) : Synced e where
  toClean := clean
  balanced := h.balanced
  ranges := h.ranges
  hidden := by
    intro matches_ key hk
    rw [h.hidden, if_pos matches_] at hk
    obtain ⟨r, hr, same⟩ := List.any_eq_true.mp (List.mem_filter.mp hk).2
    exact ⟨r, hr, beq_iff_eq.mp same⟩
  metas := h.metas
  visible := h.visible

theorem Kept.synced (h : Kept e e') (synced : Synced e) (clean : Clean e') : Synced e' where
  toClean := clean
  balanced := by rw [h.outline.balanced, h.buffer, synced.balanced]
  ranges := by rw [h.ranges, h.outline.balanced, h.buffer, synced.ranges]
  hidden := by
    rw [h.outline.balanced, h.ranges]
    intro matches_ key hk
    rcases h.hidden with same | ⟨r, hr, toggled⟩
    · exact synced.hidden matches_ key (same ▸ hk)
    · rcases HiddenSet.mem_toggle (toggled ▸ hk) with rfl | hk
      · exact ⟨r, hr, rfl⟩
      · exact synced.hidden matches_ key hk
  metas := (h.shown ⟨synced.metas, synced.visible⟩).metas
  visible := (h.shown ⟨synced.metas, synced.visible⟩).visible

/-- Nothing that a change can be leaves anything out of date. -/
theorem Effect.synced (h : Effect e timeline e') (synced : Synced e)
    (holds : timeline.Holds fun s => Unbroken s.lines) : Synced e' := by
  rw [← h.timeline] at holds
  rcases h.state with kept | changed
  · have buffer : Unbroken e'.buffer.lines := kept.buffer ▸ synced.buffer
    exact kept.synced synced ⟨buffer, holds.1, holds.2⟩
  · obtain ⟨chosen, -, derived⟩ := changed.derived
    exact derived.synced ⟨changed.unbroken synced.toClean, holds.1, holds.2⟩

theorem synced_recompute (h : Clean e) : Synced e.recompute := by
  refine (derived_recompute e).synced ⟨?_, ?_, ?_⟩
  · rw [buffer_recompute]
    exact h.buffer
  · rw [timeline_recompute]
    exact h.past
  · rw [timeline_recompute]
    exact h.future

theorem synced_new (options : Options) (clock : Clock) : Synced (new options clock) :=
  synced_recompute ⟨Buffer.unbroken_empty, List.forall_mem_nil _, List.forall_mem_nil _⟩

theorem synced_ofText (options : Options) (clock : Clock) (text : Text) :
    Synced (ofText options clock text) := by
  have start := (synced_new options clock).toClean
  exact synced_recompute ⟨unbroken_splitLines text, start.past, start.future⟩

theorem Synced.of_agrees (h : Synced e) (agrees : Agrees e e') : Synced e' :=
  (effect_of_agrees agrees).synced h h.toClean.holds

theorem Synced.write (h : Synced e) (features : List Json) {hidden : HiddenSet}
    (choice : e.Chooses hidden) (rule : CollapseRule) : Synced (e.write features hidden rule) :=
  (effect_write e features choice rule).synced h (h.toClean.holds_recorded .write)

theorem Synced.reformat (h : Synced e) (text : Text) : Synced (e.reformat text) :=
  (effect_reformat e text).synced h h.toClean.holds

theorem Synced.execute (h : Synced e) (command : Command) : Synced (e.execute command).1 :=
  (effect_execute e command).synced h (h.toClean.holds_timelineAfter command)

/-- In every state that a run leads to, the derived parts are up to date. -/
theorem Reachable.synced (h : Reachable e) : Synced e := by
  induction h with
  | new options clock => exact synced_new options clock
  | ofText options clock text => exact synced_ofText options clock text
  | step command _ ih => exact ih.execute command

end FeatureText.Editor
