import FeatureText.Proofs.Editor.Outcome
import FeatureText.Proofs.Editor.Run
import FeatureText.Proofs.Outline.Fold

/-! What commands do to the nodes. They fold them, or scan the lines anew, at most once and perhaps
with folding in front of it and behind; so what is collapsed always belongs to a node. -/
namespace FeatureText

def Command.isTyping : Command → Bool
  | .insertText _ | .newline | .deleteSelection | .deleteBackward | .deleteForward => true
  | _ => false

namespace Editor

/-- Nodes are folded, or the lines are scanned once. -/
inductive Turns (e e' : Editor) : Prop where
  | folded (buffer : e'.buffer = e.buffer) (folds : e.outline.Folds e'.outline)
  | scanned (o : Outline) (before : e.outline.Folds o)
      (after : (o.rebuild e'.buffer.lines).1.Folds e'.outline)

/-- A draft that shows and hides the same features, with at most nodes expanded. -/
structure Loosens (e draft : Editor) : Prop where
  hidden : draft.hidden = e.hidden
  outline : ∃ ids ⊆ e.outline.nodes.map Node.id, draft.outline = e.outline.expandEach ids

variable {e e' e'' draft : Editor} {command : Command}

theorem outline_recompute (e : Editor) :
    e.recompute.outline = (e.outline.rebuild e.buffer.lines).1 := by
  unfold recompute
  dsimp only
  split <;> rfl

theorem outline_settle (e : Editor) :
    e.settle.outline = (e.outline.rebuild e.buffer.lines).1 :=
  outline_recompute { e with version := e.version + 1 }

theorem expandEach_nil (o : Outline) : o.expandEach [] = o := by simp [Outline.expandEach]

theorem Loosens.of_same (hidden : draft.hidden = e.hidden) (outline : draft.outline = e.outline) :
    Loosens e draft :=
  ⟨hidden, [], List.nil_subset _, outline.trans (expandEach_nil _).symm⟩

theorem Loosens.folds (h : Loosens e draft) : e.outline.Folds draft.outline := by
  obtain ⟨ids, -, outline⟩ := h.outline
  exact outline ▸ e.outline.folds_expandEach ids

theorem Loosens.outline_eq (h : Loosens e draft) (none : e.outline.nodes = []) :
    draft.outline = e.outline := by
  obtain ⟨ids, sub, outline⟩ := h.outline
  rw [none] at sub
  rw [outline, List.subset_nil.mp sub, expandEach_nil]

theorem loosens_removeBetween (e : Editor) (start stop : Position) :
    Loosens e (e.removeBetween start stop) := by
  refine ⟨rfl, _, ?_, rfl⟩
  exact List.map_subset _ fun n hn => List.mem_of_mem_filter (List.mem_of_mem_filter hn)

theorem loosens_removeSelection (e : Editor) : Loosens e e.removeSelection := by
  unfold removeSelection
  split
  · split
    · exact .of_same rfl rfl
    · exact loosens_removeBetween e _ _
  · exact .of_same rfl rfl

/-- Typing ends the selection at most, or settles a draft. -/
inductive Types (e : Editor) : Editor → Prop where
  | rested (selection : Option Selection) : Types e { e with selection }
  | settled {draft : Editor} (loosens : Loosens e draft) : Types e draft.settle

theorem types_insertAs (e : Editor) (action : Action) (text : Text) :
    Types e (e.insertAs action text) := by
  have removed := loosens_removeSelection (e.record action)
  exact .settled ⟨removed.hidden, removed.outline⟩

theorem types_removed (e : Editor) (action : Action) :
    Types e (e.record action).removeSelection.settle := by
  have removed := loosens_removeSelection (e.record action)
  exact .settled ⟨removed.hidden, removed.outline⟩

theorem types_deleteOr (e : Editor) (range : Option (Position × Position)) :
    Types e (e.deleteOr range) := by
  unfold deleteOr
  split
  · exact types_removed e .delete
  · cases range with
    | some range =>
      have removed := loosens_removeBetween (e.deselected.record .delete) range.1 range.2
      exact .settled ⟨removed.hidden, removed.outline⟩
    | none => exact .rested none

theorem types_execute (typing : command.isTyping) : Types e (e.execute command).1 := by
  cases command with
  | insertText text =>
    change Types e (e.insertText text)
    unfold insertText
    split
    · exact .rested e.selection
    · exact types_insertAs e .insert text
  | newline => exact types_insertAs e .newline ['\n']
  | deleteSelection =>
    change Types e e.deleteSelection.1
    rw [deleteSelection_eq]
    split
    · exact types_removed e .delete
    · exact .rested none
  | deleteBackward =>
    change Types e e.deleteBackward
    rw [deleteBackward_eq]
    exact types_deleteOr e _
  | deleteForward =>
    change Types e e.deleteForward
    rw [deleteForward_eq]
    exact types_deleteOr e _
  | _ => cases typing

theorem turns_refl (e : Editor) : Turns e e := .folded rfl (.refl _)

theorem Turns.of_same (h : Turns e e') (buffer : e''.buffer = e'.buffer)
    (outline : e''.outline = e'.outline) : Turns e e'' := by
  cases h with
  | folded same folds => exact .folded (buffer.trans same) (outline ▸ folds)
  | scanned o before after => exact .scanned o before (buffer ▸ outline ▸ after)

theorem Turns.refold (h : Turns e e') {outline : Outline} (folds : e'.outline.Folds outline) :
    Turns e (refresh { e' with outline }) := by
  cases h with
  | folded same before => exact .folded same (before.trans folds)
  | scanned o before after => exact .scanned o before (after.trans folds)

theorem turns_recompute (folds : e.outline.Folds draft.outline) : Turns e draft.recompute := by
  refine .scanned draft.outline folds ?_
  rw [outline_recompute, buffer_recompute]
  exact .refl _

theorem turns_settle (folds : e.outline.Folds draft.outline) : Turns e draft.settle := by
  have recomputed : Turns e (recompute { draft with version := draft.version + 1 }) :=
    turns_recompute folds
  exact recomputed.of_same rfl rfl

theorem turns_refold {outline : Outline} (folds : e.outline.Folds outline) :
    Turns e (e.refold outline) :=
  ((turns_refl e).refold folds).of_same rfl rfl

theorem Types.turns (h : Types e e') : Turns e e' := by
  cases h with
  | rested selection => exact .folded rfl (.refl _)
  | settled loosens => exact turns_settle loosens.folds

theorem turns_cut (e : Editor) : Turns e e.cut.1 := by
  unfold cut
  dsimp only
  split
  · exact turns_refl e
  · split
    · exact (types_removed e .cut).turns
    · exact turns_settle e.outline.folds_expandAll

theorem turns_paste (e : Editor) (text : Text) : Turns e (e.paste text).1 := by
  unfold paste
  split
  · exact turns_refl e
  · split
    · exact turns_settle (loosens_removeSelection (e.record .paste)).folds
    · exact (types_insertAs e .paste text).turns

theorem turns_overwrite {α : Type} (e : Editor) (line : Nat) (found : Inline.Found α)
    (text : Text) : Turns e (e.overwrite line found text) :=
  turns_settle (.refl _)

theorem turns_setColor (e : Editor) (line index : Nat) (value : Text) :
    Turns e (e.setColor line index value).1 := by
  unfold setColor
  split
  · split
    · exact turns_overwrite e line _ value
    · exact turns_refl e
  · exact turns_refl e

theorem turns_flipBoolean (e : Editor) (line index : Nat) :
    Turns e (e.flipBoolean line index).1 := by
  unfold flipBoolean
  split
  · exact turns_overwrite e line _ _
  · exact turns_refl e

theorem turns_toggleCollapse (e : Editor) (id : NodeId) : Turns e (e.toggleCollapse id).1 := by
  have folds := e.outline.folds_toggle id
  unfold toggleCollapse
  split
  · next toggled =>
    rw [toggled] at folds
    exact turns_refold folds
  · exact turns_refl e

theorem turns_collapseCoordinates (e : Editor) : Turns e e.collapseCoordinates.1 := by
  have folds := e.outline.folds_collapseOutermost [Options.coordinatesKey]
  unfold collapseCoordinates
  split
  · split
    · exact turns_refl e
    · next collapsed =>
      rw [collapsed] at folds
      exact turns_refold folds
  · exact turns_refl e

theorem turns_toggleVisibility (e : Editor) (key : FeatureKey) :
    Turns e (e.toggleVisibility key).1 := by
  unfold toggleVisibility
  split
  · exact .folded rfl (.refl _)
  · exact turns_refl e

theorem turns_travel (e : Editor) (target : Option (Snapshot × Timeline Snapshot)) :
    Turns e (e.travel target).1 := by
  cases target with
  | none => exact turns_refl e
  | some target => exact turns_settle (.refl _)

theorem turns_write (e : Editor) (features : List Json) (hidden : HiddenSet)
    (rule : CollapseRule) : Turns e (e.write features hidden rule) := by
  have settled : Turns e (e.rewritten features hidden).settle := turns_settle (.refl _)
  have folds := (Outline.folds_expandAll _).trans
    (rule.folds_apply (e.rewritten features hidden).settle.outline.expandAll
      (e.rewritten features hidden).settle.ranges features)
  rw [write_eq]
  cases rule with
  | unchanged => exact settled
  | _ => exact settled.refold folds

theorem Writes.turns (h : e.Writes command) : Turns e (e.execute command).1 := by
  rcases h with ⟨-, features, hidden, rule, -, done⟩ | ⟨-, refused⟩
  · rw [done]
    exact turns_write e features hidden rule
  · rw [refused]
    exact turns_refl e

theorem turns_reformat (e : Editor) (text : Text) : Turns e (e.reformat text) := by
  have drafted : e.outline.Folds { e.refilled text with version := e.version + 1 }.outline :=
    .refl _
  exact (turns_recompute drafted).of_same rfl rfl

theorem turns_review (e : Editor) : Turns e e.review.1 := by
  have kept (formatted : Text) :
      Turns e (if formatted = e.buffer.text then e else e.reformat formatted) := by
    split
    · exact turns_refl e
    · exact turns_reformat e formatted
  unfold review
  dsimp only
  split
  · exact turns_refl e
  · split <;> exact kept _

theorem turns_publish (e : Editor) (emission : Debouncer) :
    Turns e (publish { e with emission }).1 := by
  cases turns_review { e with emission } with
  | folded same folds => exact .folded same folds
  | scanned o before after => exact .scanned o before after

theorem turns_poll (e : Editor) : Turns e e.poll.1 := by
  unfold poll
  dsimp only
  split
  · exact turns_publish e _
  · exact turns_refl e

theorem turns_execute (e : Editor) (command : Command) : Turns e (e.execute command).1 := by
  cases command with
  | insertText | newline | deleteSelection | deleteBackward | deleteForward =>
    exact (types_execute rfl).turns
  | cut => exact turns_cut e
  | paste text => exact turns_paste e text
  | setColor line index value => exact turns_setColor e line index value
  | flipBoolean line index => exact turns_flipBoolean e line index
  | arrow m key =>
    change Turns e (e.arrow m key)
    unfold arrow
    split <;> exact .folded rfl (.refl _)
  | toggleCollapse id => exact turns_toggleCollapse e id
  | collapseAll => exact turns_refold e.outline.folds_collapseAll
  | expandAll => exact turns_refold e.outline.folds_expandAll
  | collapseCoordinates => exact turns_collapseCoordinates e
  | toggleVisibility key => exact turns_toggleVisibility e key
  | undo => exact turns_travel e _
  | redo => exact turns_travel e _
  | set input rule => exact (writes_set e input rule).turns
  | add input rule => exact (writes_add e input rule).turns
  | insertFeatures input index rule => exact (writes_insertFeatures e input index rule).turns
  | removeFeature index rule => exact (writes_removeFeature e index rule).turns
  | load text => exact (writes_load e text).turns
  | removeAll => exact turns_settle e.outline.folds_expandAll
  | emit => exact turns_publish e _
  | poll => exact turns_poll e
  | setCursor | select | selectAll | edge | clearHistory | subscribe | collect | takeFrame
  | blockFrames | advanceClock | setClock => exact .folded rfl (.refl _)

theorem Turns.isLive (h : Turns e e') (live : e.outline.IsLive) : e'.outline.IsLive := by
  cases h with
  | folded _ folds => exact folds.isLive live
  | scanned o before after =>
    exact after.isLive (Outline.isLive_rebuild (before.isLive live) e'.buffer.lines)

theorem isLive_recompute (live : e.outline.IsLive) : e.recompute.outline.IsLive := by
  rw [outline_recompute]
  exact Outline.isLive_rebuild live e.buffer.lines

theorem isLive_new (options : Options) (clock : Clock) : (new options clock).outline.IsLive :=
  isLive_recompute (List.forall_mem_nil _)

theorem Reachable.isLive (h : e.Reachable) : e.outline.IsLive := by
  induction h with
  | new options clock => exact isLive_new options clock
  | ofText options clock text => exact isLive_recompute (isLive_new options clock)
  | step command _ ih => exact (turns_execute _ command).isLive ih

end Editor

end FeatureText
