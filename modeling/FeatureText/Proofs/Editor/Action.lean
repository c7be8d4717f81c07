import FeatureText.Proofs.Editor.Effect
import FeatureText.Proofs.Editor.FeatureList
import FeatureText.Proofs.Time.Timeline

/-! The effect of every command. A command that gets as far as to change the document is an action
and keeps the state in front of it in the timeline; of the others only undo, redo and the clearing
of the history touch the timeline. -/
namespace FeatureText

namespace Command

def finds (e : Editor) (index : Int) : Bool :=
  match e.features with
  | .ok features => (resolveIndex? index features.length).isSome
  | .error _ => false

/-- The action that a command takes if it gets as far as to change the document. -/
def action? (e : Editor) : Command → Option Action
  | .insertText text => if text.isEmpty then none else some .insert
  | .newline => some .newline
  | .deleteSelection => if e.hasSelectedText then some .delete else none
  | .deleteBackward => if e.hasSelectedText || e.placeBefore?.isSome then some .delete else none
  | .deleteForward => if e.hasSelectedText || e.placeAfter?.isSome then some .delete else none
  | .cut => if e.copy.isEmpty then none else some .cut
  | .paste text => if text.isEmpty then none else some .paste
  | .setColor line index value => if (e.setColor line index value).2 then some .inlineEdit else none
  | .flipBoolean line index => if (e.flipBoolean line index).2 then some .inlineEdit else none
  | .set input _ => if (Feature.validated input).isOk then some .write else none
  | .add input _ | .insertFeatures input _ _ =>
    if (Feature.validated input).isOk && e.features.isOk then some .write else none
  | .removeFeature index _ => if finds e index then some .write else none
  | .removeAll => some .write
  | .load text => if (Feature.readInput text).isOk then some .write else none
  | _ => none

def walked (e : Editor) : Command → Timeline Snapshot
  | .undo => ((e.timeline.undo e.snapshot).map Prod.snd).getD e.timeline
  | .redo => ((e.timeline.redo e.snapshot).map Prod.snd).getD e.timeline
  | .clearHistory => e.timeline.clear
  | _ => e.timeline

end Command

namespace Editor

def timelineAfter (e : Editor) (command : Command) : Timeline Snapshot :=
  ((command.action? e).map e.recorded).getD (command.walked e)

variable {e e' : Editor}
variable {command : Command}

theorem effect_of_action {action : Action} (acts : command.action? e = some action)
    (h : Effect e (e.recorded action) e') : Effect e (e.timelineAfter command) e' := by
  rw [timelineAfter, acts]
  exact h

theorem effect_of_rest (rests : command.action? e = none) (h : Effect e (command.walked e) e') :
    Effect e (e.timelineAfter command) e' := by
  rw [timelineAfter, rests]
  exact h

def deselected (e : Editor) : Editor := { e with selection := none }

theorem effect_deselected (e : Editor) : Effect e e.timeline e.deselected :=
  effect_of_agrees rfl

theorem deleteSelection_eq (e : Editor) :
    e.deleteSelection =
      if e.hasSelectedText then ((e.record .delete).removeSelection.settle, true)
      else (e.deselected, false) := rfl

theorem effect_deleteSelection (e : Editor) :
    Effect e (e.timelineAfter .deleteSelection) e.deleteSelection.1 := by
  rw [deleteSelection_eq]
  split
  · next selected =>
    exact effect_of_action (if_pos selected) (draft_record e .delete).removeSelection.settle
  · next idle => exact effect_of_rest (if_neg idle) (effect_deselected e)

def deleteOr (e : Editor) (range : Option (Position × Position)) : Editor :=
  if e.hasSelectedText then (e.record .delete).removeSelection.settle
  else
    match range with
    | some (start, stop) => e.deselected.deleteBetween start stop
    | none => e.deselected

theorem deleteBackward_eq (e : Editor) :
    e.deleteBackward = e.deleteOr (e.placeBefore?.map (·, e.cursor)) := by
  have same : e.deselected.placeBefore? = e.placeBefore? := rfl
  rw [deleteBackward, deleteSelection_eq]
  unfold deleteOr
  by_cases selected : e.hasSelectedText
  · simp only [if_pos selected]
  · simp only [if_neg selected, same]
    cases e.placeBefore? <;> rfl

theorem deleteForward_eq (e : Editor) :
    e.deleteForward = e.deleteOr (e.placeAfter?.map (e.cursor, ·)) := by
  have same : e.deselected.placeAfter? = e.placeAfter? := rfl
  rw [deleteForward, deleteSelection_eq]
  unfold deleteOr
  by_cases selected : e.hasSelectedText
  · simp only [if_pos selected]
  · simp only [if_neg selected, same]
    cases e.placeAfter? <;> rfl

theorem effect_deleteOr {range : Option (Position × Position)}
    (acts : command.action? e = if e.hasSelectedText || range.isSome then some .delete else none)
    (walked : command.walked e = e.timeline) :
    Effect e (e.timelineAfter command) (e.deleteOr range) := by
  unfold deleteOr
  split
  · next selected =>
    exact effect_of_action (acts.trans (if_pos (by simp [selected])))
      (draft_record e .delete).removeSelection.settle
  · next idle =>
    cases range with
    | some range =>
      have deleted := effect_deleteBetween e.deselected range.1 range.2
      exact effect_of_action (acts.trans (if_pos (by simp))) (deleted.of_start rfl)
    | none =>
      have rests := acts.trans (if_neg (by simp [idle]))
      exact effect_of_rest rests (walked ▸ effect_deselected e)

theorem effect_insertText (e : Editor) (text : Text) :
    Effect e (e.timelineAfter (.insertText text)) (e.insertText text) := by
  unfold insertText
  split
  · next blank => exact effect_of_rest (if_pos blank) (.refl e)
  · next solid => exact effect_of_action (if_neg solid) (effect_insertAs e .insert text)

theorem effect_cut (e : Editor) : Effect e (e.timelineAfter .cut) e.cut.1 := by
  have recorded := draft_record e .cut
  unfold cut
  dsimp only
  split
  · next blank => exact effect_of_rest (if_pos blank) (.refl e)
  · next solid =>
    refine effect_of_action (if_neg solid) (Draft.settle ?_)
    split
    · exact recorded.removeSelection
    · exact ⟨recorded.timeline, recorded.version, recorded.hidden, fun _ => Buffer.unbroken_empty⟩

theorem effect_paste (e : Editor) (text : Text) :
    Effect e (e.timelineAfter (.paste text)) (e.paste text).1 := by
  unfold paste
  split
  · next blank => exact effect_of_rest (if_pos blank) (.refl e)
  · next solid =>
    refine effect_of_action (if_neg solid) ?_
    split
    · exact ((draft_record e .paste).removeSelection.place _).settle
    · exact effect_insertAs e .paste text

theorem effect_of_flag {result : Editor × Bool}
    (acts : command.action? e = if result.2 then some .inlineEdit else none)
    (walked : command.walked e = e.timeline)
    (flag : result = (e, false) ∨
      ∃ edited, result = (edited, true) ∧ Effect e (e.recorded .inlineEdit) edited) :
    Effect e (e.timelineAfter command) result.1 := by
  rcases flag with rfl | ⟨edited, rfl, effect⟩
  · exact effect_of_rest acts (walked ▸ .refl e)
  · exact effect_of_action acts effect

theorem effect_setColor (e : Editor) (line index : Nat) (value : Text) :
    Effect e (e.timelineAfter (.setColor line index value)) (e.setColor line index value).1 := by
  refine effect_of_flag rfl rfl ?_
  unfold setColor
  split
  · split
    · next accepted =>
      rw [Bool.and_eq_true] at accepted
      have unbroken := newline_not_mem_of_isColor accepted.1
      exact .inr ⟨_, rfl, effect_overwrite e line _ unbroken⟩
    · exact .inl rfl
  · exact .inl rfl

theorem effect_flipBoolean (e : Editor) (line index : Nat) :
    Effect e (e.timelineAfter (.flipBoolean line index)) (e.flipBoolean line index).1 := by
  refine effect_of_flag rfl rfl ?_
  unfold flipBoolean
  split
  · next found _ =>
    refine .inr ⟨_, rfl, effect_overwrite e line found ?_⟩
    cases found.value <;> decide
  · exact .inl rfl

/-- A call that is to write features does so, or is refused and changes nothing. -/
def Writes (e : Editor) (command : Command) : Prop :=
  (command.action? e = some .write ∧ ∃ features hidden rule, e.Chooses hidden ∧
    (e.execute command).1 = e.write features hidden rule) ∨
  command.action? e = none ∧ (e.execute command).1 = e

theorem writes_set (e : Editor) (input : Json) (rule : CollapseRule) :
    e.Writes (.set input rule) := by
  cases accepted : Feature.validated input with
  | ok new =>
    exact .inl ⟨by rw [Command.action?, accepted]; rfl, _, _, rule, .inl rfl,
      congrArg Prod.fst (execute_set accepted rule)⟩
  | error reason =>
    exact .inr ⟨by rw [Command.action?, accepted]; rfl,
      congrArg Prod.fst (execute_of_not_accepted accepted rule).1⟩

theorem writes_add (e : Editor) (input : Json) (rule : CollapseRule) :
    e.Writes (.add input rule) := by
  cases accepted : Feature.validated input with
  | error reason =>
    exact .inr ⟨by rw [Command.action?, accepted]; rfl,
      congrArg Prod.fst (execute_of_not_accepted accepted rule).2.1⟩
  | ok new =>
    cases read : e.features with
    | ok old =>
      exact .inl ⟨by rw [Command.action?, accepted, read]; rfl, _, _, rule, .inl rfl,
        congrArg Prod.fst (execute_add accepted read rule)⟩
    | error reason =>
      exact .inr ⟨by rw [Command.action?, accepted, read]; rfl,
        congrArg Prod.fst (execute_of_not_readable read accepted rule).1⟩

theorem writes_insertFeatures (e : Editor) (input : Json) (index : Int) (rule : CollapseRule) :
    e.Writes (.insertFeatures input index rule) := by
  cases accepted : Feature.validated input with
  | error reason =>
    exact .inr ⟨by rw [Command.action?, accepted]; rfl,
      congrArg Prod.fst ((execute_of_not_accepted accepted rule).2.2 index)⟩
  | ok new =>
    cases read : e.features with
    | ok old =>
      exact .inl ⟨by rw [Command.action?, accepted, read]; rfl, _, _, rule, .inr ⟨_, rfl⟩,
        congrArg Prod.fst (execute_insertFeatures accepted read rfl rule)⟩
    | error reason =>
      exact .inr ⟨by rw [Command.action?, accepted, read]; rfl,
        congrArg Prod.fst ((execute_of_not_readable read accepted rule).2 index)⟩

theorem writes_removeFeature (e : Editor) (index : Int) (rule : CollapseRule) :
    e.Writes (.removeFeature index rule) := by
  cases read : e.features with
  | error reason =>
    exact .inr ⟨by rw [Command.action?, Command.finds, read]; rfl,
      congrArg Prod.fst (execute_removeFeature_of_not_readable read index rule)⟩
  | ok old =>
    cases found : resolveIndex? index old.length with
    | some place =>
      exact .inl ⟨by simp [Command.action?, Command.finds, read, found], _, _, rule, .inr ⟨_, rfl⟩,
        congrArg Prod.fst (execute_removeFeature read found rule)⟩
    | none =>
      exact .inr ⟨by simp [Command.action?, Command.finds, read, found],
        congrArg Prod.fst (execute_removeFeature_of_none read found rule)⟩

theorem writes_load (e : Editor) (text : Text) : e.Writes (.load text) := by
  cases read : Feature.readInput text with
  | ok new =>
    exact .inl ⟨by rw [Command.action?, read]; rfl, new, e.hidden, e.defaultRule, .inl rfl,
      congrArg Prod.fst (execute_load read)⟩
  | error reason =>
    exact .inr ⟨by rw [Command.action?, read]; rfl,
      congrArg Prod.fst (execute_load_of_not_read read)⟩

theorem Writes.effect (h : e.Writes command) (walked : command.walked e = e.timeline) :
    Effect e (e.timelineAfter command) (e.execute command).1 := by
  rcases h with ⟨acts, features, hidden, rule, chosen, done⟩ | ⟨rests, refused⟩
  · rw [done]
    exact effect_of_action acts (effect_write e features chosen rule)
  · rw [refused]
    exact effect_of_rest rests (walked ▸ .refl e)

theorem Clean.holds (h : Clean e) : e.timeline.Holds fun s => Unbroken s.lines :=
  ⟨h.past, h.future⟩

theorem effect_undo (e : Editor) : Effect e (e.timelineAfter .undo) e.undo.1 :=
  effect_travel e fun clean _ undone => (clean.holds.of_undo clean.buffer undone).1

theorem effect_redo (e : Editor) : Effect e (e.timelineAfter .redo) e.redo.1 :=
  effect_travel e fun clean _ redone => (clean.holds.of_redo clean.buffer redone).1

/-- The effect of each command, and the timeline it leaves behind. -/
theorem effect_execute (e : Editor) (command : Command) :
    Effect e (e.timelineAfter command) (e.execute command).1 := by
  cases command with
  | insertText text => exact effect_insertText e text
  | cut => exact effect_cut e
  | paste text => exact effect_paste e text
  | newline => exact effect_insertAs e .newline ['\n']
  | undo => exact effect_undo e
  | redo => exact effect_redo e
  | clearHistory =>
    exact ⟨rfl, .inl ⟨rfl, rfl, .refl _, rfl, .inl rfl, fun h => ⟨h.metas, h.visible⟩⟩⟩
  | collapseAll => exact effect_refold e.outline.refolds_collapseAll
  | expandAll => exact effect_refold e.outline.refolds_expandAll
  | toggleVisibility key => exact effect_toggleVisibility e key
  | emit => exact effect_emit e
  | removeAll => exact effect_removeAll e
  | deleteSelection => exact effect_deleteSelection e
  | deleteBackward =>
    rw [execute, deleteBackward_eq]
    exact effect_deleteOr (by simp [Command.action?]) rfl
  | deleteForward =>
    rw [execute, deleteForward_eq]
    exact effect_deleteOr (by simp [Command.action?]) rfl
  | setColor line index value => exact effect_setColor e line index value
  | flipBoolean line index => exact effect_flipBoolean e line index
  | setCursor | select | selectAll | edge | subscribe | collect | takeFrame | blockFrames
  | advanceClock | setClock => exact effect_of_agrees rfl
  | arrow m key => exact effect_arrow e m key
  | toggleCollapse id => exact effect_toggleCollapse e id
  | collapseCoordinates => exact effect_collapseCoordinates e
  | poll => exact effect_poll e
  | set input rule => exact (writes_set e input rule).effect rfl
  | add input rule => exact (writes_add e input rule).effect rfl
  | insertFeatures input index rule => exact (writes_insertFeatures e input index rule).effect rfl
  | removeFeature index rule => exact (writes_removeFeature e index rule).effect rfl
  | load text => exact (writes_load e text).effect rfl

theorem timeline_execute (e : Editor) (command : Command) :
    (e.execute command).1.timeline = e.timelineAfter command :=
  (effect_execute e command).timeline

theorem timelineAfter_of_action {action : Action} (acts : command.action? e = some action) :
    e.timelineAfter command = e.recorded action := by
  rw [timelineAfter, acts]
  rfl

theorem timelineAfter_of_rest (rests : command.action? e = none) :
    e.timelineAfter command = command.walked e := by
  rw [timelineAfter, rests]
  rfl

theorem timelineAfter_induction {p : Timeline Snapshot → Prop} (same : p e.timeline)
    (record : ∀ action, p (e.recorded action))
    (undo : ∀ entry t, e.timeline.undo e.snapshot = some (entry, t) → p t)
    (redo : ∀ entry t, e.timeline.redo e.snapshot = some (entry, t) → p t)
    (clear : p e.timeline.clear) (command : Command) : p (e.timelineAfter command) := by
  cases acts : command.action? e with
  | some action =>
    rw [timelineAfter_of_action acts]
    exact record action
  | none =>
    rw [timelineAfter_of_rest acts]
    cases command with
    | undo =>
      rw [Command.walked]
      cases undone : e.timeline.undo e.snapshot with
      | none => exact same
      | some next => exact undo next.1 next.2 undone
    | redo =>
      rw [Command.walked]
      cases redone : e.timeline.redo e.snapshot with
      | none => exact same
      | some next => exact redo next.1 next.2 redone
    | clearHistory => exact clear
    | _ => exact same

theorem reachable_timelineAfter {limit window : Nat} (h : e.timeline.Reachable limit window)
    (command : Command) : (e.timelineAfter command).Reachable limit window :=
  timelineAfter_induction h (fun action => .record action _ _ h) (fun _ _ undone => .undo h undone)
    (fun _ _ redone => .redo h redone) (.clear h) command

theorem Clean.holds_recorded (h : Clean e) (action : Action) :
    (e.recorded action).Holds fun s => Unbroken s.lines :=
  h.holds.record h.buffer action _

theorem Clean.holds_timelineAfter (h : Clean e) (command : Command) :
    (e.timelineAfter command).Holds fun s => Unbroken s.lines :=
  timelineAfter_induction h.holds h.holds_recorded
    (fun _ _ undone => (h.holds.of_undo h.buffer undone).2)
    (fun _ _ redone => (h.holds.of_redo h.buffer redone).2) (Timeline.holds_clear _ _) command

theorem timeline_new (options : Options) (clock : Clock) :
    (Editor.new options clock).timeline = .new options.historyLimit options.groupWindow :=
  timeline_recompute _

theorem timeline_ofText (options : Options) (clock : Clock) (text : Text) :
    (ofText options clock text).timeline = .new options.historyLimit options.groupWindow :=
  (timeline_recompute _).trans (timeline_new options clock)

/-- The timeline of an editor is one that calls of the timeline lead to. -/
theorem Reachable.timeline (h : e.Reachable) :
    ∃ limit window, e.timeline.Reachable limit window := by
  induction h with
  | new options clock =>
    rw [timeline_new]
    exact ⟨_, _, .new⟩
  | ofText options clock text =>
    rw [timeline_ofText]
    exact ⟨_, _, .new⟩
  | step command _ ih =>
    obtain ⟨limit, window, ih⟩ := ih
    rw [timeline_execute]
    exact ⟨limit, window, reachable_timelineAfter ih command⟩

theorem Reachable.fits (h : e.Reachable) : e.timeline.Fits := by
  obtain ⟨_, _, reachable⟩ := h.timeline
  exact reachable.fits

end Editor

end FeatureText
