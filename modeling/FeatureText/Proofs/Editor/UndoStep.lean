import FeatureText.Proofs.Editor.Current
import FeatureText.Proofs.Editor.Visibility

/-! Steps of the timeline. An action opens a step or joins the open one; undo takes back all of a
step, whatever else was done since it was opened, and redo brings it back. -/
namespace FeatureText

def Command.isWalk : Command → Bool
  | .undo | .redo | .clearHistory => true
  | _ => false

namespace Editor

/-- The states that a step may lead to after its first action: more actions join it, and other
commands come between them. -/
inductive Continues (e : Editor) : Editor → Prop where
  | opened : Continues e e
  | joined {e' : Editor} (command : Command) {action : Action} :
    Continues e e' → command.action? e' = some action →
    e'.timeline.joins action e'.clock.now → Continues e (e'.execute command).1
  | between {e' : Editor} (command : Command) :
    Continues e e' → command.action? e' = none → command.isWalk = false →
    Continues e (e'.execute command).1

variable {e e' : Editor} {action : Action}

theorem walked_of_not_isWalk {command : Command} (stays : command.isWalk = false) :
    command.walked e = e.timeline := by
  cases command with
  | undo | redo | clearHistory => cases stays
  | _ => rfl

/-- Until the step is closed, what undo brings back stays the same. -/
theorem Continues.past_eq (h : Continues e e') : e'.timeline.past = e.timeline.past := by
  induction h with
  | opened => rfl
  | joined command _ acts joins ih =>
    rw [timeline_execute, timelineAfter_of_action acts, recorded, Timeline.record, joins]
    exact ih
  | between command _ rests stays ih =>
    rw [timeline_execute, timelineAfter_of_rest rests, walked_of_not_isWalk stays, ih]

theorem Continues.reachable (h : Continues e e') (reachable : e.Reachable) : e'.Reachable := by
  induction h with
  | opened => exact reachable
  | joined command _ _ _ ih => exact .step command ih
  | between command _ _ _ ih => exact .step command ih

theorem exists_past_recorded (fits : e.timeline.Fits)
    (opens : e.timeline.joins action e.clock.now = false) :
    ∃ rest, (e.recorded action).past = e.snapshot :: rest := by
  rw [recorded, Timeline.record, opens]
  exact ⟨_, List.take_cons fits.pos⟩

theorem hidden_recompute_eq_self
    (live : Bracket.isBalanced e.buffer.lines →
      ∀ key ∈ e.hidden.keys, ∃ r ∈ FeatureRange.ofLines e.buffer.lines, r.key = key) :
    e.recompute.hidden = e.hidden := by
  have derived := derived_recompute e
  rw [derived.hidden]
  split
  · next matches_ =>
    rw [derived.ranges, if_pos matches_, buffer_recompute]
    rw [derived.balanced, buffer_recompute] at matches_
    exact HiddenSet.prune_eq_self (live matches_)
  · rfl

theorem restore_snapshot (synced : Synced e) (ascending : e.hidden.IsAscending) (e' : Editor) :
    (e'.restore e.snapshot).buffer = e.buffer ∧ (e'.restore e.snapshot).hidden = e.hidden := by
  have buffer : Buffer.ofLines e.snapshot.lines = e.buffer := Buffer.ofLines_lines e.buffer
  have hidden : HiddenSet.ofKeys e.snapshot.hidden = e.hidden := ascending.ofKeys_keys
  refine ⟨?_, ?_⟩
  · rw [restore, buffer_settle]
    exact buffer
  · rw [restore, buffer, hidden]
    refine hidden_recompute_eq_self fun balanced key hk => ?_
    have matches_ := synced.balanced.trans balanced
    obtain ⟨r, hr, same⟩ := synced.hidden matches_ key hk
    rw [synced.ranges, if_pos matches_] at hr
    exact ⟨r, hr, same⟩

theorem timeline_restore (e : Editor) (s : Snapshot) : (e.restore s).timeline = e.timeline :=
  timeline_settle _

theorem execute_undo {entry : Snapshot} {timeline : Timeline Snapshot}
    (undone : e.timeline.undo e.snapshot = some (entry, timeline)) :
    e.execute .undo = (restore { e with timeline } entry, .flag true) := by
  rw [execute, undo, undone]
  rfl

theorem execute_redo {entry : Snapshot} {timeline : Timeline Snapshot}
    (redone : e.timeline.redo e.snapshot = some (entry, timeline)) :
    e.execute .redo = (restore { e with timeline } entry, .flag true) := by
  rw [execute, redo, redone]
  rfl

theorem exists_execute_undo_redo {entry : Snapshot} {rest : List Snapshot}
    (past : e.timeline.past = entry :: rest) :
    ∃ d d' : Editor, e.execute .undo = (d.restore entry, .flag true) ∧
      (d.restore entry).execute .redo = (d'.restore e.snapshot, .flag true) := by
  let undone : Timeline Snapshot :=
    { e.timeline with past := rest, future := e.snapshot :: e.timeline.future, last := none }
  let back := restore { e with timeline := undone } entry
  have future : back.timeline.future = e.snapshot :: e.timeline.future :=
    congrArg Timeline.future (timeline_restore _ entry)
  let redone : Timeline Snapshot :=
    { back.timeline with
      past := back.timeline.remember back.snapshot, future := e.timeline.future, last := none }
  have undo : e.timeline.undo e.snapshot = some (entry, undone) :=
    Timeline.undo_eq_some_iff.mpr ⟨past, rfl⟩
  have redo : back.timeline.redo back.snapshot = some (e.snapshot, redone) :=
    Timeline.redo_eq_some_iff.mpr ⟨future, rfl⟩
  exact ⟨_, _, execute_undo undo, execute_redo redo⟩

/-- One undo takes back a step as a whole, and redo brings back what it took. -/
theorem undo_takes_back_step {s e : Editor} (reachable : s.Reachable) {first : Command}
    {action : Action} (acts : first.action? s = some action)
    (opens : s.timeline.joins action s.clock.now = false)
    (run : Continues (s.execute first).1 e) :
    ∃ back again,
      e.execute .undo = (back, .flag true) ∧
      back.buffer.lines = s.buffer.lines ∧ back.hidden = s.hidden ∧
      back.execute .redo = (again, .flag true) ∧
      again.buffer.lines = e.buffer.lines ∧ again.hidden = e.hidden := by
  have after := run.reachable (.step first reachable)
  obtain ⟨rest, past⟩ := exists_past_recorded reachable.fits opens
  rw [← timelineAfter_of_action acts, ← timeline_execute, ← run.past_eq] at past
  obtain ⟨d, d', undone, redone⟩ := exists_execute_undo_redo past
  obtain ⟨lines, hidden⟩ := restore_snapshot reachable.synced reachable.isAscending d
  obtain ⟨lines', hidden'⟩ := restore_snapshot after.synced after.isAscending d'
  exact ⟨_, _, undone, congrArg Buffer.lines lines, hidden, redone, congrArg Buffer.lines lines',
    hidden'⟩

theorem timeline_withHiddenTwin : withHiddenTwin.timeline = .new 100 500 := by
  rw [withHiddenTwin, timeline_execute, timelineAfter_of_rest rfl, walked_of_not_isWalk rfl,
    withTwins, timeline_ofText]
  rfl

@[simp] theorem clock_settle (e : Editor) : e.settle.clock = e.clock := by
  unfold settle recompute
  dsimp only
  split <;> rfl

@[simp] theorem clock_removeSelection (e : Editor) : e.removeSelection.clock = e.clock := by
  unfold removeSelection
  split
  · split <;> rfl
  · rfl

theorem clock_insertAs (e : Editor) (action : Action) (text : Text) :
    (e.insertAs action text).clock = e.clock := by
  rw [insertAs, clock_settle]
  exact clock_removeSelection _

theorem joins_insertText (e : Editor) (text : Text) (solid : text.isEmpty = false)
    (fits : e.timeline.Fits) (window : 0 < e.timeline.window)
    (opens : e.timeline.joins .insert e.clock.now = false) :
    (e.execute (.insertText text)).1.timeline.joins .insert
      (e.execute (.insertText text)).1.clock.now := by
  have acts : (Command.insertText text).action? e = some .insert := by
    rw [Command.action?, solid]
    rfl
  have clock : (e.execute (.insertText text)).1.clock = e.clock := by
    rw [execute, insertText, solid]
    exact clock_insertAs e .insert text
  obtain ⟨rest, past⟩ := exists_past_recorded fits opens
  rw [timeline_execute, timelineAfter_of_action acts, clock, Timeline.joins, Timeline.canUndo, past]
  simpa [recorded, Timeline.record, Action.isGroupable] using window

def typedOver : Editor :=
  let e := (withHiddenTwin.execute (.insertText [' '])).1
  let e := (e.execute (.insertText [' '])).1
  let e := (e.execute (.toggleVisibility (Feature.key (Feature.hash (numbered 1)) 1))).1
  ((e.execute .collapseAll).1.execute .emit).1

theorem undo_takes_back_step_typedOver :
    ∃ back again,
      typedOver.execute .undo = (back, .flag true) ∧
      back.buffer.lines = withHiddenTwin.buffer.lines ∧ back.hidden = withHiddenTwin.hidden ∧
      back.execute .redo = (again, .flag true) ∧
      again.buffer.lines = typedOver.buffer.lines ∧ again.hidden = typedOver.hidden := by
  have opens : withHiddenTwin.timeline.joins .insert withHiddenTwin.clock.now = false := by
    rw [timeline_withHiddenTwin]
    rfl
  have window : 0 < withHiddenTwin.timeline.window := by
    rw [timeline_withHiddenTwin]
    decide
  have joins := joins_insertText withHiddenTwin [' '] rfl reachable_withHiddenTwin.fits window opens
  have typed := Continues.joined (.insertText [' ']) .opened rfl joins
  have run : Continues (withHiddenTwin.execute (.insertText [' '])).1 typedOver :=
    .between .emit (.between .collapseAll (.between (.toggleVisibility _) typed rfl rfl) rfl rfl)
      rfl rfl
  have acts : (Command.insertText [' ']).action? withHiddenTwin = some .insert := rfl
  exact undo_takes_back_step reachable_withHiddenTwin acts opens run

end Editor

end FeatureText
