import FeatureText.Proofs.Editor.Publishing
import FeatureText.Proofs.Motion

/-! What each command comes to. It updates the document and asks for an event, it publishes one, or
it does neither; and the first it does by settling an edit, writing features or toggling what is
hidden. -/
namespace FeatureText

namespace Command

def isSteering : Command → Bool
  | .setCursor _ | .select _ _ | .selectAll | .arrow _ _ | .edge _ _ => true
  | _ => false

def isInline : Command → Bool
  | .setColor _ _ _ | .flipBoolean _ _ => true
  | _ => false

end Command

theorem lt_of_resolveIndex? {index : Int} {length place : Nat}
    (found : resolveIndex? index length = some place) : place < length := by
  simp only [resolveIndex?, Option.ite_none_right_eq_some, Option.some.injEq] at found
  omega

namespace Editor

/-- The command updates the document. Its arguments, the cursor or its answer tell: text comes in,
there is something to delete, or the call says that it has done its work. -/
def Updates (e : Editor) (command : Command) : Prop :=
  match command with
  | .insertText text | .paste text => text ≠ []
  | .newline | .removeAll => True
  | .deleteSelection => e.hasSelectedText
  | .deleteBackward => e.hasSelectedText ∨ e.cursor ≠ .origin
  | .deleteForward => e.hasSelectedText ∨ e.cursor < e.buffer.stop
  | .cut => (e.execute command).2 ≠ .text []
  | .setColor _ _ _ | .flipBoolean _ _ | .undo | .redo | .toggleVisibility _ =>
    (e.execute command).2 = .flag true
  | .set _ _ | .add _ _ | .insertFeatures _ _ _ => (e.execute command).2 = .done
  | .removeFeature _ _ => ∃ feature, (e.execute command).2 = .feature (some feature)
  | .load _ => ∃ count, (e.execute command).2 = .count count
  | _ => False

def Publishes (e : Editor) : Command → Prop
  | .emit => True
  | .poll => e.emission.isDue e.clock.now
  | _ => False

def scheduled (e : Editor) : Editor := { e with emission := e.emission.schedule e.clock.now }

/-- Nothing is told to anyone, nor when that is to be. -/
structure Silent (e e' : Editor) : Prop where
  options : e'.options = e.options
  clock : e'.clock = e.clock
  emission : e'.emission = e.emission
  subscribers : e'.subscribers = e.subscribers
  outbox : e'.outbox = e.outbox
  lastEvent : e'.lastEvent = e.lastEvent

/-- The document stays and nothing is told of it. At most the selection ends, or the outbox is
collected. -/
structure Idle (e : Editor) (command : Command) (e' : Editor) : Prop where
  options : e'.options = e.options
  buffer : e'.buffer = e.buffer
  cursor : e'.cursor = e.cursor
  selection : e'.selection = e.selection ∨ e'.selection = none
  outline : e'.outline = e.outline
  hidden : e'.hidden = e.hidden
  emission : e'.emission = e.emission
  outbox : e'.outbox = e.outbox ∨ command = .collect ∧ e'.outbox = []
  lastEvent : e'.lastEvent = e.lastEvent

/-- All that a command can come to. -/
inductive Outcome (e : Editor) (command : Command) : Editor → Prop where
  | edited {draft : Editor} (updates : e.Updates command) (silent : Silent e draft)
      (selection : draft.selection = none ∨ command.isInline ∧ draft.selection = e.selection) :
      Outcome e command draft.settle
  | written (updates : e.Updates command) (features : List Json) (hidden : HiddenSet)
      (rule : CollapseRule) : Outcome e command (e.write features hidden rule)
  | toggled (updates : e.Updates command) (hidden : HiddenSet) :
      Outcome e command (refresh { e with hidden }).scheduled
  | refolded (rests : ¬e.Updates command) (untold : ¬e.Publishes command) {outline : Outline}
      (refolds : e.outline.Refolds outline) : Outcome e command (e.refold outline)
  | steered (rests : ¬e.Updates command) (untold : ¬e.Publishes command)
      (steers : command.isSteering) (cursor : Position) (selection : Option Selection) :
      Outcome e command { e with cursor, selection, frames := e.frames.request }
  | idled {e' : Editor} (rests : ¬e.Updates command) (untold : ¬e.Publishes command)
      (idle : Idle e command e') : Outcome e command e'
  | published (rests : ¬e.Updates command) (publishes : e.Publishes command) :
      Outcome e command e.emit.1

variable {e e' e'' : Editor} {command : Command}

theorem Silent.refl (e : Editor) : Silent e e := ⟨rfl, rfl, rfl, rfl, rfl, rfl⟩

theorem Silent.trans (h : Silent e e') (h' : Silent e' e'') : Silent e e'' :=
  ⟨h'.options.trans h.options, h'.clock.trans h.clock, h'.emission.trans h.emission,
    h'.subscribers.trans h.subscribers, h'.outbox.trans h.outbox, h'.lastEvent.trans h.lastEvent⟩

theorem Idle.refl (e : Editor) : Idle e command e :=
  ⟨rfl, rfl, rfl, .inl rfl, rfl, rfl, rfl, .inl rfl, rfl⟩

theorem idle_deselected (e : Editor) : Idle e command e.deselected :=
  ⟨rfl, rfl, rfl, .inr rfl, rfl, rfl, rfl, .inl rfl, rfl⟩

theorem silent_record (e : Editor) (action : Action) : Silent e (e.record action) :=
  ⟨rfl, rfl, rfl, rfl, rfl, rfl⟩

theorem silent_removeSelection (e : Editor) : Silent e e.removeSelection := by
  unfold removeSelection
  split
  · split <;> exact ⟨rfl, rfl, rfl, rfl, rfl, rfl⟩
  · exact .refl e

theorem silent_recompute (e : Editor) : Silent e e.recompute := by
  unfold recompute
  dsimp only
  split <;> exact ⟨rfl, rfl, rfl, rfl, rfl, rfl⟩

theorem Silent.settle {draft : Editor} (h : Silent e draft) : Silent e.scheduled draft.settle := by
  have counted : Silent draft { draft with version := draft.version + 1 } :=
    ⟨rfl, rfl, rfl, rfl, rfl, rfl⟩
  have silent := (h.trans counted).trans (silent_recompute _)
  refine ⟨silent.options, silent.clock, ?_, silent.subscribers, silent.outbox, silent.lastEvent⟩
  rw [Editor.settle, scheduled]
  dsimp only
  rw [silent.emission, silent.clock]

theorem selection_removeSelection (e : Editor) : e.removeSelection.selection = none := by
  unfold removeSelection
  split
  · split <;> rfl
  · assumption

theorem outcome_of_removed {draft : Editor} (updates : e.Updates command) (action : Action)
    (silent : Silent (e.record action).removeSelection draft)
    (selection : draft.selection = (e.record action).removeSelection.selection) :
    Outcome e command draft.settle := by
  have removed := (silent_record e action).trans (silent_removeSelection _)
  apply Outcome.edited updates (removed.trans silent)
  exact .inl (selection.trans (selection_removeSelection _))

theorem outcome_insertAs (updates : e.Updates command) (action : Action) (text : Text) :
    Outcome e command (e.insertAs action text) :=
  outcome_of_removed updates action ⟨rfl, rfl, rfl, rfl, rfl, rfl⟩ rfl

theorem isSome_placeBefore? (e : Editor) : e.placeBefore?.isSome ↔ e.cursor ≠ .origin := by
  unfold placeBefore?
  obtain ⟨line, column⟩ := e.cursor
  by_cases inner : 0 < column <;> by_cases later : 0 < line <;>
    simp [Position.origin, inner, later] <;> omega

theorem isSome_placeAfter? (e : Editor) : e.placeAfter?.isSome ↔ e.cursor < e.buffer.stop := by
  have lines := e.buffer.lineCount_pos
  have there : e.placeAfter?.isSome ↔
      e.cursor.column < e.buffer.lineLength e.cursor.line ∨
        e.cursor.line + 1 < e.buffer.lineCount := by
    unfold placeAfter?
    dsimp only
    split
    · simp [*]
    · split <;> simp [*]
  rw [there, Position.lt_def, Buffer.stop]
  dsimp only
  rcases Nat.lt_trichotomy e.cursor.line (e.buffer.lineCount - 1) with before | last | behind
  · exact iff_of_true (.inr (by omega)) (.inl before)
  · rw [last]
    omega
  · have empty := e.buffer.lineLength_eq_zero (Nat.le_of_pred_lt behind)
    omega

theorem not_updates_of_refused {reason : FeatureError}
    (refused : (e.execute command).2 = .refused reason) : ¬e.Updates command := by
  cases command with
  | set | add | insertFeatures | removeFeature | load => simp [Updates, refused]
  | _ => nomatch refused

theorem outcome_of_refused {reason : FeatureError} (untold : ¬e.Publishes command)
    (refused : e.execute command = (e, .refused reason)) :
    Outcome e command (e.execute command).1 := by
  have rests := not_updates_of_refused (congrArg Prod.snd refused)
  rw [refused]
  exact .idled rests untold (.refl e)

theorem outcome_insertText (e : Editor) (text : Text) :
    Outcome e (.insertText text) (e.insertText text) := by
  unfold insertText
  split
  · next blank => exact .idled (by simpa [Updates] using blank) id (.refl e)
  · next solid => exact outcome_insertAs (by simpa [Updates] using solid) .insert text

theorem outcome_newline (e : Editor) : Outcome e .newline e.newline := by
  have updates : e.Updates .newline := trivial
  exact outcome_insertAs updates .newline ['\n']

theorem outcome_deleteSelection (e : Editor) :
    Outcome e .deleteSelection e.deleteSelection.1 := by
  rw [deleteSelection_eq]
  split
  · next selected => exact outcome_of_removed selected .delete (.refl _) rfl
  · next empty => exact .idled empty id (idle_deselected e)

theorem outcome_deleteOr {range : Option (Position × Position)}
    (updates : e.Updates command ↔ e.hasSelectedText ∨ range.isSome)
    (untold : ¬e.Publishes command) : Outcome e command (e.deleteOr range) := by
  unfold deleteOr
  split
  · next selected =>
    exact outcome_of_removed (updates.mpr (.inl selected)) .delete (.refl _) rfl
  · next empty =>
    cases range with
    | some range => exact .edited (updates.mpr (.inr rfl)) ⟨rfl, rfl, rfl, rfl, rfl, rfl⟩ (.inl rfl)
    | none => exact .idled (by simp [updates, empty]) untold (idle_deselected e)

theorem outcome_deleteBackward (e : Editor) : Outcome e .deleteBackward e.deleteBackward := by
  rw [deleteBackward_eq]
  apply outcome_deleteOr _ id
  rw [Option.isSome_map, isSome_placeBefore?]
  rfl

theorem outcome_deleteForward (e : Editor) : Outcome e .deleteForward e.deleteForward := by
  rw [deleteForward_eq]
  apply outcome_deleteOr _ id
  rw [Option.isSome_map, isSome_placeAfter?]
  rfl

theorem outcome_cut (e : Editor) : Outcome e .cut e.cut.1 := by
  have copied : e.cut.2 = e.copy := by
    unfold cut
    dsimp only
    split <;> rfl
  have updates : e.Updates .cut ↔ e.copy ≠ [] := by
    simp [Updates, execute, andAnswer, copied]
  unfold cut
  dsimp only
  split
  · next blank => exact .idled (by simpa [updates] using blank) id (.refl e)
  · next solid =>
    have cuts : e.Updates .cut := by simpa [updates] using solid
    split
    · exact outcome_of_removed cuts .cut (.refl _) rfl
    · exact .edited cuts ⟨rfl, rfl, rfl, rfl, rfl, rfl⟩ (.inl rfl)

theorem outcome_paste (e : Editor) (text : Text) : Outcome e (.paste text) (e.paste text).1 := by
  unfold paste
  split
  · next blank => exact .idled (by simpa [Updates] using blank) id (.refl e)
  · next solid =>
    have pastes : e.Updates (.paste text) := by simpa [Updates] using solid
    split
    · exact outcome_of_removed pastes .paste ⟨rfl, rfl, rfl, rfl, rfl, rfl⟩ rfl
    · exact outcome_insertAs pastes .paste text

theorem outcome_of_flag {result : Editor × Bool}
    (updates : e.Updates command ↔ Answer.flag result.2 = .flag true)
    (untold : ¬e.Publishes command)
    (done : result = (e, false) ∨
      ∃ e', result = (e', true) ∧ (e.Updates command → Outcome e command e')) :
    Outcome e command result.1 := by
  rcases done with rfl | ⟨e', rfl, outcome⟩
  · exact .idled (by simp [updates]) untold (.refl e)
  · exact outcome (updates.mpr rfl)

theorem outcome_overwrite {α : Type} (inline : command.isInline) (updates : e.Updates command)
    (line : Nat) (found : Inline.Found α) (text : Text) :
    Outcome e command (e.overwrite line found text) :=
  .edited updates ⟨rfl, rfl, rfl, rfl, rfl, rfl⟩ (.inr ⟨inline, rfl⟩)

theorem outcome_setColor (e : Editor) (line index : Nat) (value : Text) :
    Outcome e (.setColor line index value) (e.setColor line index value).1 := by
  apply outcome_of_flag .rfl id
  unfold setColor
  split
  · split
    · exact .inr ⟨_, rfl, fun updates => outcome_overwrite rfl updates line _ value⟩
    · exact .inl rfl
  · exact .inl rfl

theorem outcome_flipBoolean (e : Editor) (line index : Nat) :
    Outcome e (.flipBoolean line index) (e.flipBoolean line index).1 := by
  apply outcome_of_flag .rfl id
  unfold flipBoolean
  split
  · exact .inr ⟨_, rfl, fun updates => outcome_overwrite rfl updates line _ _⟩
  · exact .inl rfl

theorem outcome_toggleVisibility (e : Editor) (key : FeatureKey) :
    Outcome e (.toggleVisibility key) (e.toggleVisibility key).1 := by
  apply outcome_of_flag .rfl id
  unfold toggleVisibility
  split
  · exact .inr ⟨_, rfl, fun updates => .toggled updates (e.hidden.toggle key).1⟩
  · exact .inl rfl

theorem outcome_travel {target : Option (Snapshot × Timeline Snapshot)}
    (updates : e.Updates command ↔ Answer.flag (e.travel target).2 = .flag true)
    (untold : ¬e.Publishes command) : Outcome e command (e.travel target).1 := by
  apply outcome_of_flag updates untold
  cases target with
  | none => exact .inl rfl
  | some target =>
    exact .inr ⟨_, rfl, fun updates => .edited updates ⟨rfl, rfl, rfl, rfl, rfl, rfl⟩ (.inl rfl)⟩

theorem outcome_of_written {features : List Json} {hidden : HiddenSet} {rule : CollapseRule}
    {answer : Answer} (done : e.execute command = (e.write features hidden rule, answer))
    (updates : e.Updates command) : Outcome e command (e.execute command).1 := by
  rw [done]
  exact .written updates features hidden rule

theorem outcome_set (e : Editor) (input : Json) (rule : CollapseRule) :
    Outcome e (.set input rule) (e.execute (.set input rule)).1 := by
  cases accepted : Feature.validated input with
  | error reason => exact outcome_of_refused id (execute_of_not_accepted accepted rule).1
  | ok new =>
    have done := execute_set (e := e) accepted rule
    exact outcome_of_written done (congrArg Prod.snd done)

theorem outcome_add (e : Editor) (input : Json) (rule : CollapseRule) :
    Outcome e (.add input rule) (e.execute (.add input rule)).1 := by
  cases accepted : Feature.validated input with
  | error reason => exact outcome_of_refused id (execute_of_not_accepted accepted rule).2.1
  | ok new =>
    cases read : e.features with
    | error reason => exact outcome_of_refused id (execute_of_not_readable read accepted rule).1
    | ok old =>
      have done := execute_add accepted read rule
      exact outcome_of_written done (congrArg Prod.snd done)

theorem outcome_insertFeatures (e : Editor) (input : Json) (index : Int) (rule : CollapseRule) :
    Outcome e (.insertFeatures input index rule)
      (e.execute (.insertFeatures input index rule)).1 := by
  cases accepted : Feature.validated input with
  | error reason =>
    exact outcome_of_refused id ((execute_of_not_accepted accepted rule).2.2 index)
  | ok new =>
    cases read : e.features with
    | error reason =>
      exact outcome_of_refused id ((execute_of_not_readable read accepted rule).2 index)
    | ok old =>
      have done := execute_insertFeatures accepted read (Eq.refl (insertionIndex index _)) rule
      exact outcome_of_written done (congrArg Prod.snd done)

theorem outcome_removeFeature (e : Editor) (index : Int) (rule : CollapseRule) :
    Outcome e (.removeFeature index rule) (e.execute (.removeFeature index rule)).1 := by
  cases read : e.features with
  | error reason =>
    exact outcome_of_refused id (execute_removeFeature_of_not_readable read index rule)
  | ok old =>
    cases found : resolveIndex? index old.length with
    | none =>
      have nothing := execute_removeFeature_of_none read found rule
      rw [nothing]
      exact .idled (by simp [Updates, nothing]) id (.refl e)
    | some place =>
      have done := execute_removeFeature read found rule
      rw [List.getElem?_eq_getElem (lt_of_resolveIndex? found)] at done
      exact outcome_of_written done ⟨_, congrArg Prod.snd done⟩

theorem outcome_load (e : Editor) (text : Text) :
    Outcome e (.load text) (e.execute (.load text)).1 := by
  cases read : Feature.readInput text with
  | error reason => exact outcome_of_refused id (execute_load_of_not_read read)
  | ok new =>
    have done := execute_load (e := e) read
    exact outcome_of_written done ⟨_, congrArg Prod.snd done⟩

theorem outcome_toggleCollapse (e : Editor) (node : NodeId) :
    Outcome e (.toggleCollapse node) (e.toggleCollapse node).1 := by
  have refolds := e.outline.refolds_toggle node
  unfold toggleCollapse
  split
  · next toggled =>
    rw [toggled] at refolds
    exact .refolded id id refolds
  · exact .idled id id (.refl e)

theorem outcome_collapseCoordinates (e : Editor) :
    Outcome e .collapseCoordinates e.collapseCoordinates.1 := by
  have refolds := e.outline.refolds_collapseOutermost [Options.coordinatesKey]
  unfold collapseCoordinates
  split
  · split
    · exact .idled id id (.refl e)
    · next collapsed =>
      rw [collapsed] at refolds
      exact .refolded id id refolds
  · exact .idled id id (.refl e)

theorem outcome_poll (e : Editor) : Outcome e .poll (e.execute .poll).1 := by
  by_cases due : e.emission.isDue e.clock.now
  · rw [execute_poll_of_due due]
    exact .published id due
  · have same : (e.execute .poll).1 = e := by
      simp only [execute, andAnswer, poll, Debouncer.fire, if_neg due]
    rw [same]
    exact .idled id due (.refl e)

theorem outcome_arrow (e : Editor) (m : Motion.Modifiers) (key : Motion.Arrow) :
    Outcome e (.arrow m key) (e.arrow m key) := by
  unfold arrow
  split <;> exact .steered id id rfl _ _

theorem outcome_execute (e : Editor) (command : Command) :
    Outcome e command (e.execute command).1 := by
  cases command with
  | insertText text => exact outcome_insertText e text
  | newline => exact outcome_newline e
  | deleteSelection => exact outcome_deleteSelection e
  | deleteBackward => exact outcome_deleteBackward e
  | deleteForward => exact outcome_deleteForward e
  | cut => exact outcome_cut e
  | paste text => exact outcome_paste e text
  | setColor line index value => exact outcome_setColor e line index value
  | flipBoolean line index => exact outcome_flipBoolean e line index
  | setCursor | select | selectAll | edge => exact .steered id id rfl _ _
  | arrow m key => exact outcome_arrow e m key
  | toggleCollapse node => exact outcome_toggleCollapse e node
  | collapseAll => exact .refolded id id e.outline.refolds_collapseAll
  | expandAll => exact .refolded id id e.outline.refolds_expandAll
  | collapseCoordinates => exact outcome_collapseCoordinates e
  | toggleVisibility key => exact outcome_toggleVisibility e key
  | undo => exact outcome_travel .rfl id
  | redo => exact outcome_travel .rfl id
  | set input rule => exact outcome_set e input rule
  | add input rule => exact outcome_add e input rule
  | insertFeatures input index rule => exact outcome_insertFeatures e input index rule
  | removeFeature index rule => exact outcome_removeFeature e index rule
  | removeAll => exact .edited trivial ⟨rfl, rfl, rfl, rfl, rfl, rfl⟩ (.inl rfl)
  | load text => exact outcome_load e text
  | emit => exact .published id trivial
  | poll => exact outcome_poll e
  | collect =>
    exact .idled id id ⟨rfl, rfl, rfl, .inl rfl, rfl, rfl, rfl, .inr ⟨rfl, rfl⟩, rfl⟩
  | clearHistory | subscribe | takeFrame | blockFrames | advanceClock | setClock =>
    exact .idled id id ⟨rfl, rfl, rfl, .inl rfl, rfl, rfl, rfl, .inl rfl, rfl⟩

end Editor

end FeatureText
