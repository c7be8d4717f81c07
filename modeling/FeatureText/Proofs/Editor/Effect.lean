import FeatureText.Editor.Clipboard
import FeatureText.Editor.Control
import FeatureText.Editor.Folding
import FeatureText.Editor.Navigation
import FeatureText.Editor.Undo
import FeatureText.Proofs.Editor.Write
import FeatureText.Proofs.Outline.Refold
import FeatureText.Proofs.Text.Buffer

/-! What a change of the state can be. Either the lines are kept, and at most nodes are folded and a
feature is hidden or shown; or the buffer is changed once, and all that is derived from the lines is
made anew. -/
namespace FeatureText

namespace Editor

/-- All that bringing the derived parts up to date relies on. -/
structure Clean (e : Editor) : Prop where
  buffer : Unbroken e.buffer.lines
  past : ∀ s ∈ e.timeline.past, Unbroken s.lines
  future : ∀ s ∈ e.timeline.future, Unbroken s.lines

structure Shown (e : Editor) : Prop where
  metas : e.metas = View.lineMetas e.buffer.lines e.outline e.ranges e.hidden
  visible : e.visible = View.visibleLines e.buffer.lines e.metas

/-- All was made anew from the lines, and at most nodes were folded since. While the brackets match,
of what was to be hidden only features that are there are left. -/
structure Derived (chosen : HiddenSet) (e : Editor) : Prop extends Shown e where
  outline : ∃ o : Outline, (o.rebuild e.buffer.lines).1.Refolds e.outline
  ranges : e.ranges = if e.outline.balanced then FeatureRange.ofLines e.buffer.lines else []
  hidden : e.hidden = if e.outline.balanced then chosen.prune e.ranges else chosen

def recorded (e : Editor) (action : Action) : Timeline Snapshot :=
  (e.timeline.record action e.clock.now e.snapshot).1

def Chooses (e : Editor) (hidden : HiddenSet) : Prop :=
  hidden = e.hidden ∨ ∃ keys, hidden = .ofKeys keys

/-- The lines stay; nodes may be folded and a feature hidden or shown. -/
structure Kept (e e' : Editor) : Prop where
  buffer : e'.buffer = e.buffer
  version : e'.version = e.version
  outline : e.outline.Refolds e'.outline
  ranges : e'.ranges = e.ranges
  hidden : e'.hidden = e.hidden ∨ ∃ r ∈ e.ranges, e'.hidden = (e.hidden.toggle r.key).1
  shown : Shown e → Shown e'

structure Changed (e e' : Editor) : Prop where
  version : e'.version = e.version + 1
  unbroken : Clean e → Unbroken e'.buffer.lines
  derived : ∃ chosen, e.Chooses chosen ∧ Derived chosen e'

/-- All that a command can do that leaves a timeline behind. -/
structure Effect (e : Editor) (timeline : Timeline Snapshot) (e' : Editor) : Prop where
  timeline : e'.timeline = timeline
  state : Kept e e' ∨ Changed e e'

/-- A change that is not settled yet. -/
structure Draft (e : Editor) (timeline : Timeline Snapshot) (e' : Editor) : Prop where
  timeline : e'.timeline = timeline
  version : e'.version = e.version
  hidden : e.Chooses e'.hidden
  unbroken : Clean e → Unbroken e'.buffer.lines

/-- The second editor differs from the first at most in the cursor, the selection, the clock, and
what is told to whom and when. -/
def Agrees (e e' : Editor) : Prop :=
  e' =
    { e with
      cursor := e'.cursor, selection := e'.selection, clock := e'.clock
      emission := e'.emission, frames := e'.frames, subscribers := e'.subscribers
      outbox := e'.outbox, lastEvent := e'.lastEvent }

variable {e e' e'' : Editor} {timeline : Timeline Snapshot} {chosen : HiddenSet}

theorem Shown.of_agrees (h : Shown e) (agrees : Agrees e e') : Shown e' := by
  rw [agrees]
  exact ⟨h.metas, h.visible⟩

theorem Derived.of_agrees (h : Derived chosen e) (agrees : Agrees e e') : Derived chosen e' := by
  rw [agrees]
  exact ⟨⟨h.metas, h.visible⟩, h.outline, h.ranges, h.hidden⟩

theorem Derived.balanced (h : Derived chosen e) :
    e.outline.balanced = Bracket.isBalanced e.buffer.lines := by
  obtain ⟨o, refolds⟩ := h.outline
  exact refolds.balanced.trans (o.balanced_rebuild e.buffer.lines)

theorem Derived.refold (h : Derived chosen e) {outline : Outline}
    (refolds : e.outline.Refolds outline) : Derived chosen (refresh { e with outline }) := by
  obtain ⟨o, rebuilt⟩ := h.outline
  refine ⟨⟨rfl, rfl⟩, ⟨o, rebuilt.trans refolds⟩, h.ranges.trans ?_, h.hidden.trans ?_⟩
  · rw [← refolds.balanced]
    rfl
  · rw [← refolds.balanced]
    rfl

theorem Effect.of_agrees (h : Effect e timeline e') (agrees : Agrees e' e'') :
    Effect e timeline e'' := by
  refine ⟨(congrArg Editor.timeline agrees).trans h.timeline,
    h.state.imp (fun kept => ?_) fun changed => ?_⟩
  · have shown (before : Shown e) : Shown e'' := (kept.shown before).of_agrees agrees
    rw [agrees] at shown ⊢
    exact ⟨kept.buffer, kept.version, kept.outline, kept.ranges, kept.hidden, shown⟩
  · obtain ⟨chosen, choice, derived⟩ := changed.derived
    have after : Derived chosen e'' := derived.of_agrees agrees
    rw [agrees] at after ⊢
    exact ⟨changed.version, changed.unbroken, chosen, choice, after⟩

/-- What a change starts from may be taken with another cursor. -/
theorem Effect.of_start (h : Effect e timeline e') (agrees : Agrees e e'') :
    Effect e'' timeline e' := by
  refine ⟨h.timeline, h.state.imp (fun kept => ?_) fun changed => ?_⟩
  · rw [agrees]
    exact ⟨kept.buffer, kept.version, kept.outline, kept.ranges, kept.hidden,
      fun shown => kept.shown ⟨shown.metas, shown.visible⟩⟩
  · rw [agrees]
    exact ⟨changed.version, fun clean => changed.unbroken ⟨clean.buffer, clean.past, clean.future⟩,
      changed.derived⟩

theorem Effect.refl (e : Editor) : Effect e e.timeline e :=
  ⟨rfl, .inl ⟨rfl, rfl, .refl _, rfl, .inl rfl, id⟩⟩

theorem effect_of_agrees (agrees : Agrees e e') : Effect e e.timeline e' :=
  (Effect.refl e).of_agrees agrees

theorem Effect.refold (h : Effect e timeline e') {outline : Outline}
    (refolds : e'.outline.Refolds outline) : Effect e timeline (refresh { e' with outline }) := by
  refine ⟨h.timeline, h.state.imp (fun kept => ?_) fun changed => ?_⟩
  · exact ⟨kept.buffer, kept.version, kept.outline.trans refolds, kept.ranges, kept.hidden,
      fun _ => ⟨rfl, rfl⟩⟩
  · obtain ⟨chosen, choice, derived⟩ := changed.derived
    exact ⟨changed.version, changed.unbroken, chosen, choice, derived.refold refolds⟩

theorem draft_record (e : Editor) (action : Action) :
    Draft e (e.recorded action) (e.record action) :=
  ⟨rfl, rfl, .inl rfl, Clean.buffer⟩

theorem Draft.removeBetween (h : Draft e timeline e') (start stop : Position) :
    Draft e timeline (e'.removeBetween start stop) :=
  ⟨h.timeline, h.version, h.hidden,
    fun clean => Buffer.unbroken_delete (h.unbroken clean) start stop⟩

theorem Draft.removeSelection (h : Draft e timeline e') : Draft e timeline e'.removeSelection := by
  unfold Editor.removeSelection
  split
  · split
    · exact ⟨h.timeline, h.version, h.hidden, h.unbroken⟩
    · exact h.removeBetween _ _
  · exact h

theorem Draft.place (h : Draft e timeline e') (text : Text) : Draft e timeline (e'.place text) :=
  ⟨h.timeline, h.version, h.hidden,
    fun clean => Buffer.unbroken_insert (h.unbroken clean) e'.cursor text⟩

@[simp] theorem timeline_recompute (e : Editor) : e.recompute.timeline = e.timeline := by
  unfold recompute
  dsimp only
  split <;> rfl

@[simp] theorem timeline_settle (e : Editor) : e.settle.timeline = e.timeline :=
  timeline_recompute { e with version := e.version + 1 }

theorem version_recompute (e : Editor) : e.recompute.version = e.version := by
  unfold recompute
  dsimp only
  split <;> rfl

theorem derived_recompute (e : Editor) : Derived e.hidden e.recompute := by
  unfold recompute
  dsimp only
  split
  · next matches_ =>
    exact ⟨⟨rfl, rfl⟩, ⟨e.outline, .refl _⟩, (if_pos matches_).symm, (if_pos matches_).symm⟩
  · next broken =>
    exact ⟨⟨rfl, rfl⟩, ⟨e.outline, .refl _⟩, (if_neg broken).symm, (if_neg broken).symm⟩

theorem derived_settle (e : Editor) : Derived e.hidden e.settle :=
  (derived_recompute { e with version := e.version + 1 }).of_agrees rfl

theorem Draft.recompute (h : Draft e timeline e') :
    Effect e timeline (recompute { e' with version := e'.version + 1 }) := by
  refine ⟨(timeline_recompute _).trans h.timeline, .inr ⟨?_, ?_, e'.hidden, h.hidden, ?_⟩⟩
  · rw [version_recompute, h.version]
  · rw [buffer_recompute]
    exact h.unbroken
  · exact derived_recompute { e' with version := e'.version + 1 }

theorem Draft.settle (h : Draft e timeline e') : Effect e timeline e'.settle :=
  h.recompute.of_agrees rfl

theorem effect_insertAs (e : Editor) (action : Action) (text : Text) :
    Effect e (e.recorded action) (e.insertAs action text) :=
  ((draft_record e action).removeSelection.place text).settle

theorem effect_deleteBetween (e : Editor) (start stop : Position) :
    Effect e (e.recorded .delete) (e.deleteBetween start stop) :=
  ((draft_record e .delete).removeBetween start stop).settle

theorem effect_overwrite {α : Type} (e : Editor) (line : Nat) (found : Inline.Found α)
    {text : Text} (ht : '\n' ∉ text) :
    Effect e (e.recorded .inlineEdit) (e.overwrite line found text) :=
  Draft.settle ⟨rfl, rfl, .inl rfl,
    fun clean => Buffer.unbroken_replaceInLine? clean.buffer ht line found.start found.stop⟩

theorem effect_refold {outline : Outline} (refolds : e.outline.Refolds outline) :
    Effect e e.timeline (e.refold outline) :=
  ((Effect.refl e).refold refolds).of_agrees rfl

theorem recollapse_eq_refresh (e : Editor) (written : List Json) (rule : CollapseRule) :
    e.recollapse written rule = e ∨ ∃ outline, e.outline.Refolds outline ∧
      e.recollapse written rule = refresh { e with outline } := by
  have refolds := e.outline.refolds_expandAll.trans
    (rule.refolds_apply e.outline.expandAll e.ranges written)
  cases rule with
  | unchanged => exact .inl rfl
  | _ => exact .inr ⟨_, refolds, rfl⟩

def rewritten (e : Editor) (features : List Json) (hidden : HiddenSet) : Editor :=
  { e.record .write with
    buffer := .ofText (formatFeatures e.options.indentWidth features), hidden
    cursor := .origin, selection := none }

theorem write_eq (e : Editor) (features : List Json) (hidden : HiddenSet) (rule : CollapseRule) :
    e.write features hidden rule =
      (e.rewritten features hidden).settle.recollapse features rule := rfl

theorem derived_write (e : Editor) (features : List Json) (hidden : HiddenSet)
    (rule : CollapseRule) : Derived hidden (e.write features hidden rule) := by
  have settled : Derived hidden (e.rewritten features hidden).settle :=
    derived_settle (e.rewritten features hidden)
  rw [write_eq]
  rcases recollapse_eq_refresh _ features rule with same | ⟨outline, refolds, folded⟩
  · rwa [same]
  · rw [folded]
    exact settled.refold refolds

theorem effect_write (e : Editor) (features : List Json) {hidden : HiddenSet}
    (choice : e.Chooses hidden) (rule : CollapseRule) :
    Effect e (e.recorded .write) (e.write features hidden rule) := by
  have draft : Draft e (e.recorded .write) (e.rewritten features hidden) :=
    ⟨rfl, rfl, choice, fun _ => unbroken_splitLines _⟩
  rw [write_eq]
  rcases recollapse_eq_refresh _ features rule with same | ⟨outline, refolds, folded⟩
  · rw [same]
    exact draft.settle
  · rw [folded]
    exact draft.settle.refold refolds

theorem effect_removeAll (e : Editor) : Effect e (e.recorded .write) e.removeAll :=
  Draft.settle ⟨rfl, rfl, .inr ⟨[], rfl⟩, fun _ => Buffer.unbroken_empty⟩

theorem effect_toggleVisibility (e : Editor) (key : FeatureKey) :
    Effect e e.timeline (e.toggleVisibility key).1 := by
  unfold toggleVisibility
  split
  · next there =>
    obtain ⟨r, hr, same⟩ := List.any_eq_true.mp there
    rw [← beq_iff_eq.mp same]
    exact ⟨rfl, .inl ⟨rfl, rfl, .refl _, rfl, .inr ⟨r, hr, rfl⟩, fun _ => ⟨rfl, rfl⟩⟩⟩
  · exact .refl e

def refilled (e : Editor) (text : Text) : Editor :=
  let buffer := Buffer.ofText text
  { e with
    buffer, selection := none
    cursor := Significant.place buffer.lines (Significant.anchor e.buffer.lines e.cursor) }

theorem derived_reformat (e : Editor) (text : Text) : Derived e.hidden (e.reformat text) :=
  (derived_recompute { e.refilled text with version := e.version + 1 }).of_agrees rfl

theorem effect_reformat (e : Editor) (text : Text) : Effect e e.timeline (e.reformat text) := by
  have draft : Draft e e.timeline (e.refilled text) :=
    ⟨rfl, rfl, .inl rfl, fun _ => unbroken_splitLines text⟩
  exact draft.recompute.of_agrees rfl

theorem effect_review (e : Editor) : Effect e e.timeline e.review.1 := by
  have kept (formatted : Text) :
      Effect e e.timeline (if formatted = e.buffer.text then e else e.reformat formatted) := by
    split
    · exact .refl e
    · exact effect_reformat e formatted
  unfold review
  dsimp only
  split
  · exact .refl e
  · split <;> exact kept _

theorem effect_publish (e : Editor) : Effect e e.timeline e.publish.1 :=
  (effect_review e).of_agrees rfl

theorem effect_travel (e : Editor) {target : Option (Snapshot × Timeline Snapshot)}
    (unbroken : Clean e → ∀ next ∈ target, Unbroken next.1.lines) :
    Effect e ((target.map Prod.snd).getD e.timeline) (e.travel target).1 := by
  cases target with
  | none => exact .refl e
  | some target =>
    exact Draft.settle ⟨rfl, rfl, .inr ⟨target.1.hidden, rfl⟩,
      fun clean => Buffer.unbroken_ofLines (unbroken clean target rfl)⟩

theorem effect_arrow (e : Editor) (m : Motion.Modifiers) (key : Motion.Arrow) :
    Effect e e.timeline (e.arrow m key) := by
  unfold arrow
  split <;> exact effect_of_agrees rfl

theorem effect_toggleCollapse (e : Editor) (id : NodeId) :
    Effect e e.timeline (e.toggleCollapse id).1 := by
  have refolds := e.outline.refolds_toggle id
  unfold toggleCollapse
  split
  · next toggled =>
    rw [toggled] at refolds
    exact effect_refold refolds
  · exact .refl e

theorem effect_collapseCoordinates (e : Editor) :
    Effect e e.timeline e.collapseCoordinates.1 := by
  have refolds := e.outline.refolds_collapseOutermost [Options.coordinatesKey]
  unfold collapseCoordinates
  split
  · split
    · exact .refl e
    · next collapsed =>
      rw [collapsed] at refolds
      exact effect_refold refolds
  · exact .refl e

theorem effect_emit (e : Editor) : Effect e e.timeline e.emit.1 :=
  (effect_publish { e with emission := e.emission.cancel }).of_start rfl

theorem effect_poll (e : Editor) : Effect e e.timeline e.poll.1 := by
  unfold poll
  dsimp only
  split
  · next emission _ => exact (effect_publish { e with emission }).of_start rfl
  · exact .refl e

end Editor

end FeatureText
