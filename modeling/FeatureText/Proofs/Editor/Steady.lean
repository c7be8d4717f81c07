import FeatureText.Proofs.Editor.Current
import FeatureText.Proofs.Editor.Outcome
import FeatureText.Proofs.Editor.Run
import FeatureText.Proofs.Motion.Shown

/-! Where the cursor and the selection stand. If the ends of the document are good places, and
snapping gives good places, and motions lead from good places to good ones, then all commands keep
to good places but two kinds: a call to select may choose bad ones, and an edit inside the text
leaves the selection where it is. -/
namespace FeatureText

theorem Selection.of_mem_between {q : Position → Prop} {anchor head : Position}
    (anchored : q anchor) (ends : q head) {s : Selection} (hs : s ∈ Selection.between anchor head) :
    q s.anchor ∧ q s.head := by
  unfold Selection.between at hs
  split at hs
  · cases hs
  · cases hs
    exact ⟨anchored, ends⟩

namespace Editor

structure Placed (good : Buffer → Outline → Position → Prop) (e : Editor) : Prop where
  cursor : good e.buffer e.outline e.cursor
  selection : ∀ s ∈ e.selection,
    good e.buffer e.outline s.anchor ∧ good e.buffer e.outline s.head

/-- Places of the kind are at both ends of the document, snapping leads to them, and motions do not
lead away from them. -/
structure Steady (good : Buffer → Outline → Position → Prop) : Prop where
  origin : ∀ b o, good b o .origin
  stop : ∀ e : Editor, e.IsScanned → good e.buffer e.outline e.buffer.stop
  snapped : ∀ e : Editor, e.IsScanned → ∀ p, good e.buffer e.outline (e.snapped p)
  arrow : ∀ e : Editor, e.IsScanned → ∀ p m key, good e.buffer e.outline p →
    good e.buffer e.outline (Motion.arrow clusters e.buffer.lines e.outline p m key)
  edge : ∀ e : Editor, e.IsScanned → ∀ p m key, good e.buffer e.outline p →
    good e.buffer e.outline (Motion.edge e.buffer.lines p m key)

variable {e e' : Editor} {command : Command} {good : Buffer → Outline → Position → Prop}

@[simp] theorem cursor_recompute (e : Editor) : e.recompute.cursor = e.cursor := by
  unfold recompute
  dsimp only
  split <;> rfl

@[simp] theorem selection_recompute (e : Editor) : e.recompute.selection = e.selection := by
  unfold recompute
  dsimp only
  split <;> rfl

@[simp] theorem selection_settle (e : Editor) : e.settle.selection = e.selection :=
  selection_recompute { e with version := e.version + 1 }

theorem IsNew.cursor (h : e.IsNew) : e.cursor = .origin := by
  obtain ⟨options, clock, rfl | ⟨text, rfl⟩⟩ := h
  · rw [new, cursor_recompute]
  · rw [ofText, cursor_recompute, new, cursor_recompute]

theorem IsNew.selection (h : e.IsNew) : e.selection = none := by
  obtain ⟨options, clock, rfl | ⟨text, rfl⟩⟩ := h
  · rw [new, selection_recompute]
  · rw [ofText, selection_recompute, new, selection_recompute]

theorem Placed.of_deselected (cursor : good e.buffer e.outline e.cursor)
    (none : e.selection = none) : Placed good e :=
  ⟨cursor, by rw [none]; nofun⟩

theorem Placed.of_same (h : Placed good e) (buffer : e'.buffer = e.buffer)
    (outline : e'.outline = e.outline) (cursor : e'.cursor = e.cursor)
    (selection : e'.selection = e.selection ∨ e'.selection = none) : Placed good e' := by
  have there : good e'.buffer e'.outline e'.cursor := by
    rw [buffer, outline, cursor]
    exact h.cursor
  rcases selection with same | none
  · refine ⟨there, ?_⟩
    rw [buffer, outline, same]
    exact h.selection
  · exact .of_deselected there none

/-- Nothing hides the first line, so a write leaves the cursor at the start even if it collapses
nodes. -/
theorem cursor_write (e : Editor) (features : List Json) (hidden : HiddenSet)
    (rule : CollapseRule) : (e.write features hidden rule).cursor = .origin := by
  have settled : (e.rewritten features hidden).settle.cursor = .origin := by
    rw [settle]
    dsimp only
    rw [cursor_recompute]
    exact Motion.snap_eq_self ⟨Buffer.has_origin _, Outline.shows_zero _⟩
  rw [write_eq]
  cases rule <;> exact settled

theorem selection_write (e : Editor) (features : List Json) (hidden : HiddenSet)
    (rule : CollapseRule) : (e.write features hidden rule).selection = none := by
  have settled : (e.rewritten features hidden).settle.selection = none := selection_settle _
  rw [write_eq]
  cases rule <;> exact settled

theorem Placed.moveTo (h : Placed good e) {target : Position}
    (there : good e.buffer e.outline target) (extend : Bool) :
    Placed good (e.moveTo target extend) := by
  refine ⟨there, fun s hs => ?_⟩
  have anchored : good e.buffer e.outline ((e.selection.map Selection.anchor).getD e.cursor) := by
    cases selected : e.selection with
    | none => exact h.cursor
    | some old => exact (h.selection old selected).1
  cases extend with
  | false => cases hs
  | true => exact Selection.of_mem_between anchored there hs

theorem Placed.bounds (h : Placed good e) {s : Selection} (hs : s ∈ e.selection) :
    good e.buffer e.outline s.bounds.1 ∧ good e.buffer e.outline s.bounds.2 := by
  unfold Selection.bounds
  split
  · exact h.selection s hs
  · exact (h.selection s hs).symm

theorem Placed.edgeOfSelection (h : Placed good e) {m : Motion.Modifiers} {key : Motion.Arrow}
    {target : Position} (edge : e.edgeOfSelection? m key = some target) :
    good e.buffer e.outline target := by
  unfold edgeOfSelection? at edge
  split at edge
  · next s selected =>
    split at edge
    · exact Option.some.inj edge ▸ (h.bounds selected).1
    · cases edge
  · next s selected =>
    split at edge
    · exact Option.some.inj edge ▸ (h.bounds selected).2
    · cases edge
  · cases edge

theorem IsScanned.fits (h : e.IsScanned) : e.outline.Fits e.buffer := by
  obtain ⟨o, refolds⟩ := h
  exact fun n hn => o.fits_rebuild e.buffer n (refolds.nodes ▸ hn)

theorem IsScanned.nests (h : e.IsScanned) : e.outline.Nests := by
  obtain ⟨o, refolds⟩ := h
  exact (o.nests_rebuild e.buffer.lines).of_refolds refolds

namespace Steady

variable (h : Steady good)

include h

theorem placed_of_isNew (new : e.IsNew) : Placed good e := by
  refine .of_deselected ?_ new.selection
  rw [new.cursor]
  exact h.origin _ _

/-- However the cursor was left, the end of a change takes it to a good place. -/
theorem cursor_settle (e : Editor) : good e.settle.buffer e.settle.outline e.settle.cursor :=
  h.snapped _ (isScanned_recompute { e with version := e.version + 1 }) _

theorem placed_settle (none : e.selection = none) : Placed good e.settle :=
  .of_deselected (h.cursor_settle e) (by rwa [selection_settle])

theorem placed_write (e : Editor) (features : List Json) (hidden : HiddenSet)
    (rule : CollapseRule) : Placed good (e.write features hidden rule) := by
  refine .of_deselected ?_ (selection_write e features hidden rule)
  rw [cursor_write]
  exact h.origin _ _

theorem placed_refold (scanned : e.IsScanned) {outline : Outline}
    (refolds : e.outline.Refolds outline) : Placed good (e.refold outline) := by
  obtain ⟨o, rebuilt⟩ := scanned
  have folded : (refresh { e with outline }).IsScanned := ⟨o, rebuilt.trans refolds⟩
  refine ⟨h.snapped _ folded _, fun s hs => ?_⟩
  obtain ⟨old, -, rfl⟩ := Option.map_eq_some_iff.mp hs
  exact ⟨h.snapped _ folded _, h.snapped _ folded _⟩

theorem placed_reformat (e : Editor) (text : Text) : Placed good (e.reformat text) :=
  .of_deselected (h.snapped _ (isScanned_recompute _) _) (selection_recompute _)

theorem placed_review (placed : Placed good e) : Placed good e.review.1 := by
  have kept (formatted : Text) :
      Placed good (if formatted = e.buffer.text then e else e.reformat formatted) := by
    split
    · exact placed
    · exact h.placed_reformat e formatted
  unfold Editor.review
  dsimp only
  split
  · exact placed
  · split <;> exact kept _

theorem placed_emit (placed : Placed good e) : Placed good e.emit.1 := by
  have quiet : Placed good { e with emission := e.emission.cancel } :=
    ⟨placed.cursor, placed.selection⟩
  have reviewed := h.placed_review quiet
  exact ⟨reviewed.cursor, reviewed.selection⟩

theorem placed_arrow (placed : Placed good e) (scanned : e.IsScanned) (m : Motion.Modifiers)
    (key : Motion.Arrow) : Placed good (e.arrow m key) := by
  unfold Editor.arrow
  split
  · next edge => exact placed.moveTo (placed.edgeOfSelection edge) false
  · exact placed.moveTo (h.arrow e scanned _ m key placed.cursor) m.shift

theorem placed_steered (placed : Placed good e) (scanned : e.IsScanned)
    (steers : command.isSteering) (moves : ∀ anchor head, command ≠ .select anchor head) :
    Placed good (e.execute command).1 := by
  cases command with
  | setCursor p => exact .of_deselected (h.snapped e scanned p) rfl
  | select anchor head => exact absurd rfl (moves anchor head)
  | selectAll =>
    refine ⟨h.stop e scanned, fun s hs => ?_⟩
    cases hs
    exact ⟨h.origin _ _, h.stop e scanned⟩
  | arrow m key => exact h.placed_arrow placed scanned m key
  | edge m key => exact placed.moveTo (h.edge e scanned _ m key placed.cursor) m.shift
  | _ => cases steers

/-- All other commands but edits inside the text keep to good places, whatever they come to. -/
theorem placed_of_outcome (placed : Placed good e) (scanned : e.IsScanned)
    (outcome : Outcome e command e') (stays : command.isSteering = false)
    (cuts : command.isInline = false) : Placed good e' := by
  cases outcome with
  | edited _ _ selection =>
    rcases selection with none | ⟨inline, -⟩
    · exact h.placed_settle none
    · exact absurd inline (by simp [cuts])
  | written _ features hidden rule => exact h.placed_write e features hidden rule
  | toggled => exact ⟨placed.cursor, placed.selection⟩
  | refolded _ _ refolds => exact h.placed_refold scanned refolds
  | steered _ _ steers => exact absurd steers (by simp [stays])
  | idled _ _ idle => exact placed.of_same idle.buffer idle.outline idle.cursor idle.selection
  | published => exact h.placed_emit placed

theorem placed_execute (placed : Placed good e) (scanned : e.IsScanned)
    (cuts : command.isInline = false) (moves : ∀ anchor head, command ≠ .select anchor head) :
    Placed good (e.execute command).1 := by
  cases steers : command.isSteering with
  | true => exact h.placed_steered placed scanned steers moves
  | false => exact h.placed_of_outcome placed scanned (outcome_execute e command) steers cuts

end Steady

end Editor

end FeatureText
