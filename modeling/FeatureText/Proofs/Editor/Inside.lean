import FeatureText.Proofs.Editor.Steady

/-! Where the cursor and the selection are. Every command leaves them in the buffer but one kind of
edit: changing a color or flipping a boolean moves the cursor into the buffer and forgets about the
selection, which may then end behind its line. -/
namespace FeatureText

namespace Buffer

theorem lineCount_replaceInLine? (b : Buffer) (index start stop : Nat) (text : Text) :
    ((b.replaceInLine? index start stop text).getD b).lineCount = b.lineCount := by
  unfold replaceInLine?
  split
  · exact List.length_modify _ _ _
  · rfl

theorem lineLength_replaceInLine? (b : Buffer) {index other : Nat} (start stop : Nat) (text : Text)
    (away : other ≠ index) :
    ((b.replaceInLine? index start stop text).getD b).lineLength other = b.lineLength other := by
  unfold replaceInLine?
  split
  · simp [lineLength, lineAt, Ne.symm away]
  · rfl

end Buffer

namespace Editor

variable {e : Editor}

/-- The cursor and both ends of the selection are in the buffer. -/
structure Inside (e : Editor) : Prop where
  cursor : e.buffer.Has e.cursor
  selection : ∀ s ∈ e.selection, e.buffer.Has s.anchor ∧ e.buffer.Has s.head

theorem inside_iff_placed : e.Inside ↔ Placed (fun b _ p => b.Has p) e :=
  ⟨fun h => ⟨h.cursor, h.selection⟩, fun h => ⟨h.cursor, h.selection⟩⟩

theorem steady_has : Steady fun b _ p => b.Has p where
  origin b _ := b.has_origin
  stop e _ := e.buffer.has_stop
  snapped _ scanned p := Motion.has_snap scanned.fits p
  arrow _ scanned _ m key there := Motion.within_arrow 0 scanned.fits there m key
  edge _ _ _ m key there := Motion.has_edge there.1 m key

theorem inside_of_isNew (h : e.IsNew) : e.Inside :=
  inside_iff_placed.mpr (steady_has.placed_of_isNew h)

theorem Inside.execute (h : e.Inside) (scanned : e.IsScanned) {command : Command}
    (cuts : command.isInline = false) (moves : ∀ anchor head, command ≠ .select anchor head) :
    (e.execute command).1.Inside :=
  inside_iff_placed.mpr (steady_has.placed_execute (inside_iff_placed.mp h) scanned cuts moves)

theorem inside_select (e : Editor) (anchor head : Position) : (e.select anchor head).Inside :=
  ⟨e.buffer.has_clamp head, fun _ hs =>
    Selection.of_mem_between (e.buffer.has_clamp anchor) (e.buffer.has_clamp head) hs⟩

/-- The cursor and both ends of the selection are on lines of the buffer. -/
def OnLines (e : Editor) : Prop := Placed (fun b _ p => p.line < b.lineCount) e

theorem Inside.onLines (h : e.Inside) : e.OnLines :=
  ⟨h.cursor.1, fun s hs => ⟨(h.selection s hs).1.1, (h.selection s hs).2.1⟩⟩

theorem steady_onLine : Steady fun b _ p => p.line < b.lineCount where
  origin b _ := b.has_origin.1
  stop e _ := e.buffer.has_stop.1
  snapped _ scanned p := (Motion.has_snap scanned.fits p).1
  arrow _ scanned p m key there :=
    (Motion.within_arrow p.column scanned.fits ⟨there, Nat.le_add_left _ _⟩ m key).1
  edge _ _ _ m key there := (Motion.has_edge there m key).1

theorem lineCount_overwrite {α : Type} (e : Editor) (line : Nat) (found : Inline.Found α)
    (text : Text) : (e.overwrite line found text).buffer.lineCount = e.buffer.lineCount := by
  rw [overwrite, buffer_settle]
  exact e.buffer.lineCount_replaceInLine? line found.start found.stop text

theorem OnLines.overwrite {α : Type} (h : e.OnLines) (line : Nat) (found : Inline.Found α)
    (text : Text) : (e.overwrite line found text).OnLines := by
  have selection : (e.overwrite line found text).selection = e.selection := selection_settle _
  refine ⟨steady_onLine.cursor_settle _, ?_⟩
  rw [e.lineCount_overwrite, selection]
  exact h.selection

theorem OnLines.execute (h : e.OnLines) (scanned : e.IsScanned) (command : Command) :
    (e.execute command).1.OnLines := by
  cases command with
  | setColor line index value =>
    change (e.setColor line index value).1.OnLines
    unfold setColor
    split
    · split
      · exact h.overwrite line _ value
      · exact h
    · exact h
  | flipBoolean line index =>
    change (e.flipBoolean line index).1.OnLines
    unfold flipBoolean
    split
    · exact h.overwrite line _ _
    · exact h
  | select anchor head => exact (e.inside_select anchor head).onLines
  | _ => exact steady_onLine.placed_execute h scanned rfl nofun

theorem Reachable.onLines (h : e.Reachable) : e.OnLines := by
  induction h with
  | new options clock => exact (inside_of_isNew ⟨options, clock, .inl rfl⟩).onLines
  | ofText options clock text => exact (inside_of_isNew ⟨options, clock, .inr ⟨text, rfl⟩⟩).onLines
  | step command reachable ih => exact ih.execute reachable.isScanned command

/-- An end of the selection stands on a line, behind the end that the line has in a buffer. -/
def Overhangs (e : Editor) (line : Nat) (b : Buffer) : Prop :=
  ∃ s ∈ e.selection, ∃ p ∈ [s.anchor, s.head], p.line = line ∧ b.lineLength line < p.column

/-- The command changes a color or a boolean, and an end of the selection is left behind the end of
its line. -/
def CutsSelection (e : Editor) : Command → Prop
  | .setColor line index value => e.Overhangs line (e.setColor line index value).1.buffer
  | .flipBoolean line index => e.Overhangs line (e.flipBoolean line index).1.buffer
  | _ => False

theorem Inside.iff_not_overhangs (h : e.Inside) {e' : Editor} {line : Nat}
    (selection : e'.selection = e.selection) (cursor : e'.buffer.Has e'.cursor)
    (count : e'.buffer.lineCount = e.buffer.lineCount)
    (others : ∀ other, other ≠ line → e'.buffer.lineLength other = e.buffer.lineLength other) :
    e'.Inside ↔ ¬e.Overhangs line e'.buffer := by
  have has (p : Position) (hp : e.buffer.Has p) :
      e'.buffer.Has p ↔ ¬(p.line = line ∧ e'.buffer.lineLength line < p.column) := by
    by_cases there : p.line = line
    · subst there
      simp [Buffer.Has, count, hp.1]
    · simp [Buffer.Has, count, others p.line there, hp.1, hp.2, there]
  constructor
  · rintro inside ⟨s, hs, p, hp, overhangs⟩
    have old := h.selection s hs
    have new := inside.selection s (selection ▸ hs)
    rcases List.mem_pair.mp hp with rfl | rfl
    · exact (has _ old.1).mp new.1 overhangs
    · exact (has _ old.2).mp new.2 overhangs
  · intro fits
    refine ⟨cursor, fun s hs => ?_⟩
    rw [selection] at hs
    have old := h.selection s hs
    refine ⟨(has _ old.1).mpr fun overhangs => fits ⟨s, hs, _, ?_, overhangs⟩,
      (has _ old.2).mpr fun overhangs => fits ⟨s, hs, _, ?_, overhangs⟩⟩
    · exact List.mem_cons_self
    · exact List.mem_cons_of_mem _ List.mem_cons_self

theorem Inside.iff_self (h : e.Inside) (line : Nat) : e.Inside ↔ ¬e.Overhangs line e.buffer :=
  h.iff_not_overhangs rfl h.cursor rfl fun _ _ => rfl

theorem Inside.overwrite_iff {α : Type} (h : e.Inside) (line : Nat) (found : Inline.Found α)
    (text : Text) :
    (e.overwrite line found text).Inside ↔
      ¬e.Overhangs line (e.overwrite line found text).buffer := by
  refine h.iff_not_overhangs (selection_settle _) (steady_has.cursor_settle _)
    (e.lineCount_overwrite line found text) fun other away => ?_
  rw [overwrite, buffer_settle]
  exact e.buffer.lineLength_replaceInLine? found.start found.stop text away

theorem Inside.setColor_iff (h : e.Inside) (line index : Nat) (value : Text) :
    (e.setColor line index value).1.Inside ↔ ¬e.CutsSelection (.setColor line index value) := by
  rw [CutsSelection]
  unfold setColor
  split
  · split
    · exact h.overwrite_iff line _ value
    · exact h.iff_self line
  · exact h.iff_self line

theorem Inside.flipBoolean_iff (h : e.Inside) (line index : Nat) :
    (e.flipBoolean line index).1.Inside ↔ ¬e.CutsSelection (.flipBoolean line index) := by
  rw [CutsSelection]
  unfold flipBoolean
  split
  · exact h.overwrite_iff line _ _
  · exact h.iff_self line

/-- A command keeps the cursor and the selection in the buffer, or it cuts off the selection. -/
theorem Inside.execute_iff (h : e.Inside) (scanned : e.IsScanned) (command : Command) :
    (e.execute command).1.Inside ↔ ¬e.CutsSelection command := by
  cases command with
  | setColor line index value => exact h.setColor_iff line index value
  | flipBoolean line index => exact h.flipBoolean_iff line index
  | select anchor head => exact iff_of_true (e.inside_select anchor head) id
  | _ => exact iff_of_true (h.execute scanned rfl nofun) id

inductive Careful : Editor → Prop where
  | new (options : Options) (clock : Clock) : Careful (.new options clock)
  | ofText (options : Options) (clock : Clock) (text : Text) : Careful (.ofText options clock text)
  | step {e : Editor} (command : Command) (fits : ¬e.CutsSelection command) :
    Careful e → Careful (e.execute command).1

theorem Careful.reachable (h : e.Careful) : e.Reachable := by
  induction h with
  | new options clock => exact .new options clock
  | ofText options clock text => exact .ofText options clock text
  | step command _ _ ih => exact ih.step command

/-- As long as no edit cuts off the selection, the cursor and the selection are in the buffer; and
only such an edit takes them out of it. -/
theorem careful_runs_stay_inside (h : e.Careful) :
    e.Inside ∧ ∀ command, (e.execute command).1.Inside ↔ ¬e.CutsSelection command := by
  have inside : e.Inside := by
    induction h with
    | new options clock => exact inside_of_isNew ⟨options, clock, .inl rfl⟩
    | ofText options clock text => exact inside_of_isNew ⟨options, clock, .inr ⟨text, rfl⟩⟩
    | step command fits careful ih =>
      exact (ih.execute_iff careful.reachable.isScanned command).mpr fits
  exact ⟨inside, inside.execute_iff h.reachable.isScanned⟩

/-- A document that gets shorter when its boolean is flipped, and longer when it is flipped back. -/
def flag : Text := ['"', 'a', '"', ':', ' ', 'f', 'a', 'l', 's', 'e']

theorem careful_runs_stay_inside_flag :
    let flipped := ((ofText .default .still flag).execute (.flipBoolean 0 0)).1
    let selected := (flipped.execute .selectAll).1
    flipped.Careful ∧ flipped.Inside ∧ ¬selected.CutsSelection (.flipBoolean 0 0) ∧
      (selected.execute (.flipBoolean 0 0)).1.Inside := by
  intro flipped selected
  have start : (ofText .default .still flag).selection = none := rfl
  have careful : flipped.Careful := by
    refine .step _ ?_ (.ofText .default .still flag)
    rintro ⟨s, hs, -⟩
    rw [start] at hs
    cases hs
  have fits : ¬selected.CutsSelection (.flipBoolean 0 0) := by
    have ends : selected.selection = some ⟨⟨0, 0⟩, ⟨0, 9⟩⟩ := rfl
    have room : (selected.flipBoolean 0 0).1.buffer.lineLength 0 = 10 := rfl
    rintro ⟨s, hs, p, hp, -, behind⟩
    rw [ends] at hs
    cases hs
    rw [room] at behind
    rcases List.mem_pair.mp hp with rfl | rfl
    · exact absurd behind (by decide)
    · exact absurd behind (by decide)
  have stays := careful_runs_stay_inside (careful.step .selectAll id)
  exact ⟨careful, (careful_runs_stay_inside careful).1, fits, (stays.2 _).mpr fits⟩

/-- A selection that is longer than its line; the next arrow takes the cursor there. -/
theorem flipBoolean_leaves_selection_behind :
    let selected := ((ofText .default .still flag).execute .selectAll).1
    let flipped := (selected.execute (.flipBoolean 0 0)).1
    let moved := (flipped.execute (.arrow ⟨false, false, false⟩ .right)).1
    flipped.Reachable ∧ ¬flipped.Inside ∧ moved.Reachable ∧ ¬moved.buffer.Has moved.cursor := by
  intro selected flipped moved
  have reachable : flipped.Reachable :=
    ((Reachable.ofText .default .still flag).step .selectAll).step (.flipBoolean 0 0)
  have ends : flipped.selection = some ⟨⟨0, 0⟩, ⟨0, 10⟩⟩ := rfl
  have length : flipped.buffer.lineLength 0 = 9 := rfl
  refine ⟨reachable, fun inside => ?_, reachable.step _, fun inside => ?_⟩
  · have stop := (inside.selection _ ends).2.2
    rw [length] at stop
    exact absurd stop (by decide)
  · have cursor : moved.cursor = ⟨0, 10⟩ := rfl
    have kept : moved.buffer = flipped.buffer := rfl
    rw [cursor, kept] at inside
    have stop := inside.2
    rw [length] at stop
    exact absurd stop (by decide)

end Editor

end FeatureText
