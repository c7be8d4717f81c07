import FeatureText.Proofs.Editor.Inside
import FeatureText.Proofs.Editor.Turn
import FeatureText.Proofs.Text.Flat

/-! Where the cursor is after typing. It is behind the new text, or where the old text was taken
out; if a collapsed node of the new text hides that place, then the cursor is at the bracket where
the outermost such node opens. Brackets of the new text can match in other ways, so a node that was
collapsed before may do that. -/
namespace FeatureText

theorem Selection.bounds_le (s : Selection) : s.bounds.1 ≤ s.bounds.2 := by
  unfold bounds
  split
  · next ordered => exact ordered
  · next reversed => exact Position.le_of_not_le reversed

namespace Buffer

variable {b : Buffer} {p q : Position}

/-- A place that is behind the end of its line only clamps to that end. -/
theorem le_clamp (h : b.Has p) (ordered : p ≤ q) (line : q.line < b.lineCount) :
    p ≤ b.clamp q := by
  have same : min q.line (b.lineCount - 1) = q.line := Nat.min_eq_left (Nat.le_sub_one_of_lt line)
  rw [Position.le_def] at ordered
  rw [clamp, same, Position.le_def]
  apply ordered.imp_right
  rintro ⟨there, columns⟩
  exact ⟨there, Nat.le_min.mpr ⟨columns, there ▸ h.2⟩⟩

theorem span_of_le (h : b.Has p) (ordered : p ≤ q) (line : q.line < b.lineCount) :
    (b.span p q).1 = p := by
  have first := le_clamp h ordered line
  rw [span, clamp_eq_self h, if_pos first]

end Buffer

def Command.typed? : Command → Option Text
  | .insertText text => if text.isEmpty then none else some text
  | .newline => some ['\n']
  | .paste text => if text.isEmpty || (Editor.featuresOf? text).isSome then none else some text
  | _ => none

def Command.deletes : Command → Bool
  | .deleteSelection | .deleteBackward | .deleteForward => true
  | _ => false

namespace Editor

variable {e : Editor} {command : Command} {text : Text} {range : Position × Position}

def selected? (e : Editor) : Option (Position × Position) :=
  (e.selection.filter fun s => !s.isEmpty).map Selection.bounds

/-- Where a deletion begins and where it ends: the selected text, or else what stands on one side of
the cursor. -/
def removal? (e : Editor) : Command → Option (Position × Position)
  | .deleteSelection => e.selected?
  | .deleteBackward => e.selected?.or (e.placeBefore?.map (·, e.cursor))
  | .deleteForward => e.selected?.or (e.placeAfter?.map (e.cursor, ·))
  | _ => none

structure Lands (e after : Editor) (p : Position) : Prop where
  cursor : after.cursor = after.outline.shownPlace p
  collapsed : ∀ n, after.outline.hidingNode? p.line = some n → e.outline.isCollapsed n.id

theorem selected?_eq (e : Editor) :
    e.selected? =
      match e.selection with
      | some s => if s.isEmpty then none else some s.bounds
      | none => none := by
  unfold selected?
  cases e.selection with
  | none => rfl
  | some s => cases empty : s.isEmpty <;> simp [Option.filter, empty]

theorem removeSelection_of_some (h : e.selected? = some range) :
    e.removeSelection = e.removeBetween range.1 range.2 := by
  rw [selected?_eq] at h
  rw [removeSelection]
  cases selected : e.selection with
  | none =>
    rw [selected] at h
    cases h
  | some s =>
    rw [selected] at h
    cases empty : s.isEmpty <;> simp only [empty] at h ⊢ <;> cases h
    rfl

theorem hasSelectedText_eq (e : Editor) : e.hasSelectedText = e.selected?.isSome := by
  rw [hasSelectedText, selected?_eq]
  cases e.selection with
  | none => rfl
  | some s => cases empty : s.isEmpty <;> simp [empty]

theorem deleteOr_eq (e : Editor) (range : Option (Position × Position)) :
    e.deleteOr range =
      match e.selected?.or range with
      | some (start, stop) => e.deleteBetween start stop
      | none => e.deselected := by
  unfold deleteOr
  rw [hasSelectedText_eq]
  cases selected : e.selected? with
  | none => cases range <;> rfl
  | some ends =>
    have recorded : (e.record .delete).selected? = some ends := selected
    rw [removeSelection_of_some recorded]
    rfl

theorem execute_of_deletes (deletes : command.deletes) :
    (e.execute command).1 =
      match e.removal? command with
      | some (start, stop) => e.deleteBetween start stop
      | none => e.deselected := by
  cases command with
  | deleteSelection =>
    have same : e.deleteSelection.1 = e.deleteOr none := by
      rw [deleteSelection_eq, deleteOr]
      split <;> rfl
    change e.deleteSelection.1 = _
    rw [same, deleteOr_eq, Option.or_none]
    rfl
  | deleteBackward =>
    change e.deleteBackward = _
    rw [deleteBackward_eq, deleteOr_eq]
    rfl
  | deleteForward =>
    change e.deleteForward = _
    rw [deleteForward_eq, deleteOr_eq]
    rfl
  | _ => cases deletes

theorem execute_of_typed? (typed : command.typed? = some text) :
    ∃ action, (e.execute command).1 = e.insertAs action text := by
  cases command with
  | insertText other =>
    rw [Command.typed?] at typed
    split at typed
    · cases typed
    · next filled =>
      cases typed
      exact ⟨.insert, if_neg filled⟩
  | newline =>
    cases typed
    exact ⟨.newline, rfl⟩
  | paste other =>
    rw [Command.typed?] at typed
    split at typed
    · cases typed
    · next plain =>
      cases typed
      simp only [Bool.or_eq_true, not_or, Bool.not_eq_true, Option.isSome_eq_false_iff,
        Option.isNone_iff_eq_none] at plain
      refine ⟨.paste, ?_⟩
      change (e.paste text).1 = _
      rw [paste, plain.1, plain.2]
      rfl
  | _ => cases typed

/-- After a change of the buffer the cursor is at a place that it was put to. -/
theorem cursor_settle_eq (there : e.buffer.Has e.cursor) :
    e.settle.cursor = e.settle.outline.shownPlace e.cursor := by
  have snapped : e.settle.cursor = Motion.snap e.settle.buffer.lines e.settle.outline e.cursor := by
    rw [settle]
    dsimp only
    rw [cursor_recompute]
    rfl
  rw [snapped, buffer_settle]
  exact Motion.snap_eq_shownPlace there _

theorem Types.collapsed_subset {after : Editor} (h : Types e after) :
    after.outline.collapsed ⊆ e.outline.collapsed := by
  cases h with
  | rested selection => exact List.Subset.refl _
  | settled loosens =>
    obtain ⟨ids, -, outline⟩ := loosens.outline
    rw [outline_settle, outline]
    exact List.Subset.trans (Outline.collapsed_rebuild_subset _ _) (List.filter_subset_self _)

theorem Types.lands {after : Editor} {p : Position} (h : Types e after)
    (cursor : after.cursor = after.outline.shownPlace p) : Lands e after p := by
  refine ⟨cursor, fun n found => ?_⟩
  have collapsed := (List.mem_filter.mp (List.mem_of_find?_eq_some found)).2
  exact List.contains_iff_mem.mpr (h.collapsed_subset (List.contains_iff_mem.mp collapsed))

theorem removeSelection_record (e : Editor) (action : Action) :
    (e.record action).removeSelection =
      { e.removeSelection with timeline := (e.record action).timeline } := by
  have same : (e.record action).selection = e.selection := rfl
  rw [removeSelection, removeSelection, same]
  split
  · split <;> rfl
  · rfl

theorem lands_insertAs (h : e.Reachable) (action : Action) (text : Text) :
    let inserted := e.removeSelection.buffer.insert e.removeSelection.cursor text
    (e.insertAs action text).buffer = inserted.1 ∧ Lands e (e.insertAs action text) inserted.2 := by
  intro inserted
  have types := types_insertAs e action text
  rw [insertAs, removeSelection_record] at types ⊢
  have unbroken := (draft_record e action).removeSelection.unbroken h.synced.toClean
  rw [removeSelection_record] at unbroken
  have there : inserted.1.Has inserted.2 := Buffer.has_stop_of_insert unbroken _ text
  exact ⟨buffer_settle _, types.lands (cursor_settle_eq there)⟩

theorem lands_deleteBetween (h : e.Reachable) (start stop : Position) :
    (e.deleteBetween start stop).buffer = e.buffer.delete start stop ∧
      (e.buffer.Has start → start ≤ stop → stop.line < e.buffer.lineCount →
        (e.buffer.span start stop).1 = start ∧ Lands e (e.deleteBetween start stop) start) := by
  refine ⟨buffer_settle _, fun there ordered line => ?_⟩
  have first := Buffer.span_of_le there ordered line
  have left := Buffer.has_start_of_delete h.synced.toClean.buffer start stop
  rw [first] at left
  have types : Types e (e.deleteBetween start stop) := by
    have loosens := loosens_removeBetween (e.record .delete) start stop
    exact .settled ⟨loosens.hidden, loosens.outline⟩
  refine ⟨first, types.lands ?_⟩
  have cursor : ((e.record .delete).removeBetween start stop).cursor = start :=
    Buffer.clamp_eq_self left
  have landed : ((e.record .delete).removeBetween start stop).buffer.Has
      ((e.record .delete).removeBetween start stop).cursor := by
    rw [cursor]
    exact left
  rw [deleteBetween, cursor_settle_eq landed, cursor]

theorem placeBefore?_le {p : Position} (found : e.placeBefore? = some p) : p ≤ e.cursor := by
  unfold placeBefore? at found
  dsimp only at found
  split at found
  · cases found
    exact .inr ⟨rfl, clusters.previous_le _ _⟩
  · split at found
    · next later =>
      cases found
      exact .inl (Nat.sub_one_lt_of_lt later)
    · cases found

theorem le_placeAfter? {p : Position} (found : e.placeAfter? = some p) : e.cursor ≤ p := by
  unfold placeAfter? at found
  dsimp only at found
  split at found
  · next inner =>
    cases found
    exact .inr ⟨rfl, Nat.le_of_lt (clusters.lt_next inner)⟩
  · split at found
    · cases found
      exact .inl (Nat.lt_succ_self _)
    · cases found

theorem OnLines.placeAfter? (h : e.OnLines) {p : Position} (found : e.placeAfter? = some p) :
    p.line < e.buffer.lineCount := by
  unfold Editor.placeAfter? at found
  dsimp only at found
  split at found
  · cases found
    exact h.cursor
  · split at found
    · next later =>
      cases found
      exact later
    · cases found

theorem OnLines.removal (h : e.OnLines) {start stop : Position}
    (found : e.removal? command = some (start, stop)) :
    start ≤ stop ∧ stop.line < e.buffer.lineCount := by
  have selected {start stop : Position} (found : e.selected? = some (start, stop)) :
      start ≤ stop ∧ stop.line < e.buffer.lineCount := by
    obtain ⟨s, chosen, ends⟩ := Option.map_eq_some_iff.mp found
    have bounds := (h.bounds (Option.filter_eq_some_iff.mp chosen).1).2
    have ordered := s.bounds_le
    rw [ends] at bounds ordered
    exact ⟨ordered, bounds⟩
  cases command with
  | deleteSelection => exact selected found
  | deleteBackward =>
    rcases Option.or_eq_some_iff.mp found with found | ⟨-, found⟩
    · exact selected found
    · obtain ⟨p, before, ends⟩ := Option.map_eq_some_iff.mp found
      cases ends
      exact ⟨placeBefore?_le before, h.cursor⟩
  | deleteForward =>
    rcases Option.or_eq_some_iff.mp found with found | ⟨-, found⟩
    · exact selected found
    · obtain ⟨p, behind, ends⟩ := Option.map_eq_some_iff.mp found
      cases ends
      exact ⟨le_placeAfter? behind, h.placeAfter? behind⟩
  | _ => cases found

/-- Typing leaves the cursor just behind the new text and a deletion where the removed text began,
unless a node that was collapsed before hides that place. -/
theorem typing_lands (h : e.Reachable) (command : Command) :
    (∀ text ∈ command.typed?,
      let inserted := e.removeSelection.buffer.insert e.removeSelection.cursor text
      (e.execute command).1.buffer = inserted.1 ∧ Lands e (e.execute command).1 inserted.2) ∧
    (command.deletes →
      (e.removal? command = none → (e.execute command).1.buffer = e.buffer) ∧
      ∀ start stop, e.removal? command = some (start, stop) →
        (e.execute command).1.buffer = e.buffer.delete start stop ∧
        (e.buffer.Has start →
          (e.buffer.span start stop).1 = start ∧ Lands e (e.execute command).1 start)) := by
  constructor
  · intro text typed
    obtain ⟨action, same⟩ := execute_of_typed? (e := e) typed
    rw [same]
    exact lands_insertAs h action text
  · intro deletes
    rw [execute_of_deletes deletes]
    refine ⟨fun nothing => ?_, fun start stop found => ?_⟩
    · rw [nothing]
      rfl
    · rw [found]
      obtain ⟨ordered, line⟩ := h.onLines.removal found
      obtain ⟨buffer, lands⟩ := lands_deleteBetween h start stop
      exact ⟨buffer, fun there => lands there ordered line⟩

def inFirstList : Editor :=
  (((ofText .default .still "[\n1\n],\n[\n2\n]".toList).execute (.toggleCollapse 1)).1.execute
    (.setCursor ⟨1, 0⟩)).1

theorem reachable_inFirstList : inFirstList.Reachable :=
  ((Reachable.ofText _ _ _).step _).step _

theorem typing_lands_inFirstList :
    let typed := (inFirstList.execute (.insertText "x\ny".toList)).1
    let deleted := (inFirstList.execute .deleteForward).1
    typed.cursor = ⟨2, 1⟩ ∧ typed.buffer.text = "[\nx\ny1\n],\n[\n2\n]".toList ∧
      deleted.cursor = ⟨1, 0⟩ ∧ deleted.buffer.text = "[\n\n],\n[\n2\n]".toList := by
  intro typed deleted
  obtain ⟨typing, -⟩ := typing_lands reachable_inFirstList (.insertText "x\ny".toList)
  obtain ⟨-, deleting⟩ := typing_lands reachable_inFirstList .deleteForward
  obtain ⟨text, lands⟩ := typing _ rfl
  obtain ⟨left, lands'⟩ := (deleting rfl).2 ⟨1, 0⟩ ⟨1, 1⟩ (by decide)
  exact ⟨lands.cursor.trans (by decide +kernel),
    (congrArg Buffer.text text).trans (by decide +kernel),
    (lands' (by decide)).2.cursor.trans (by decide +kernel),
    (congrArg Buffer.text left).trans (by decide +kernel)⟩

def atListEnd : Editor :=
  (((ofText .default .still "[\n1\n\"\"],[\n2\n]".toList).execute (.toggleCollapse 0)).1.execute
    (.setCursor ⟨2, 0⟩)).1

theorem reachable_atListEnd : atListEnd.Reachable :=
  ((Reachable.ofText _ _ _).step _).step _

/-- The new text closes the first list and opens one that takes the place of the second; without the
quote the first list goes on to the end of the second. -/
theorem collapsed_lists_hide_typing :
    let text := "]\n,[\n".toList
    let typed := (inFirstList.execute (.insertText text)).1
    let deleted := (atListEnd.execute .deleteForward).1
    inFirstList.Reachable ∧ inFirstList.selection = none ∧
      (inFirstList.buffer.insert inFirstList.cursor text).2 = ⟨3, 0⟩ ∧ typed.cursor = ⟨2, 1⟩ ∧
      atListEnd.Reachable ∧ atListEnd.selection = none ∧ atListEnd.cursor = ⟨2, 0⟩ ∧
      deleted.buffer.text = "[\n1\n\"],[\n2\n]".toList ∧ deleted.cursor = ⟨0, 0⟩ := by
  intro text typed deleted
  refine ⟨reachable_inFirstList, by decide +kernel, by decide +kernel, by decide +kernel,
    reachable_atListEnd, by decide +kernel, by decide +kernel, by decide +kernel, by decide +kernel⟩

end Editor

end FeatureText
