import FeatureText.Proofs.Editor.Steady

/-! What the user can see of the cursor. All commands bring the cursor and the selection out of what
is hidden but two kinds: a call to select takes them wherever it is told, and an edit inside the
text leaves the selection where it is, even if it makes a collapsed node of what is around it. -/
namespace FeatureText.Editor

/-- The cursor and both ends of the selection are on lines that are shown. -/
structure InSight (e : Editor) : Prop where
  cursor : e.outline.Shows e.cursor.line
  selection : ∀ s ∈ e.selection, e.outline.Shows s.anchor.line ∧ e.outline.Shows s.head.line

def Buries (e : Editor) (o : Outline) : Prop :=
  ∃ s ∈ e.selection, ∃ p ∈ [s.anchor, s.head], ¬o.Shows p.line

/-- The command selects to or from a line that is hidden, or an edit inside the text hides an end of
the selection. -/
def LosesSight (e : Editor) : Command → Prop
  | .select anchor head => ∃ p ∈ [anchor, head], ¬e.outline.Shows (e.buffer.clamp p).line
  | .setColor line index value => e.Buries (e.setColor line index value).1.outline
  | .flipBoolean line index => e.Buries (e.flipBoolean line index).1.outline
  | _ => False

variable {start e e' : Editor}

theorem inSight_iff_placed : e.InSight ↔ Placed (fun _ o p => o.Shows p.line) e :=
  ⟨fun h => ⟨h.cursor, h.selection⟩, fun h => ⟨h.cursor, h.selection⟩⟩

theorem steady_shows : Steady fun _ o p => o.Shows p.line where
  origin _ o := o.shows_zero
  stop _ scanned := Motion.shows_documentEnd scanned.fits
  snapped e scanned p := Motion.shows_snap scanned.nests e.buffer.lines p
  arrow _ scanned _ m key shown := Motion.shows_arrow scanned.nests shown scanned.fits m key
  edge _ scanned _ m key shown := Motion.shows_edge scanned.fits shown m key

theorem InSight.execute (h : e.InSight) (scanned : e.IsScanned) {command : Command}
    (cuts : command.isInline = false) (moves : ∀ anchor head, command ≠ .select anchor head) :
    (e.execute command).1.InSight :=
  inSight_iff_placed.mpr
    (steady_shows.placed_execute (inSight_iff_placed.mp h) scanned cuts moves)

theorem inSight_select_iff (e : Editor) (anchor head : Position) :
    (e.select anchor head).InSight ↔ ¬e.LosesSight (.select anchor head) := by
  have shown : ¬e.LosesSight (.select anchor head) ↔
      e.outline.Shows (e.buffer.clamp anchor).line ∧
        e.outline.Shows (e.buffer.clamp head).line := by
    simp [LosesSight]
  rw [shown]
  constructor
  · intro sight
    refine ⟨?_, sight.cursor⟩
    by_cases same : e.buffer.clamp anchor = e.buffer.clamp head
    · rw [same]
      exact sight.cursor
    · exact (sight.selection _ (if_neg same)).1
  · rintro ⟨anchored, ends⟩
    exact ⟨ends, fun _ hs =>
      Selection.of_mem_between (q := fun p => e.outline.Shows p.line) anchored ends hs⟩

/-- The selection stays where it is, so all depends on what is hidden there now. -/
theorem inSight_iff_not_buries (selection : e'.selection = e.selection)
    (cursor : e'.outline.Shows e'.cursor.line) : e'.InSight ↔ ¬e.Buries e'.outline := by
  have shown : ¬e.Buries e'.outline ↔ ∀ s ∈ e.selection,
      e'.outline.Shows s.anchor.line ∧ e'.outline.Shows s.head.line := by
    simp [Buries]
  rw [shown, ← selection]
  exact ⟨InSight.selection, fun there => ⟨cursor, there⟩⟩

theorem inSight_overwrite_iff {α : Type} (e : Editor) (line : Nat) (found : Inline.Found α)
    (text : Text) :
    (e.overwrite line found text).InSight ↔ ¬e.Buries (e.overwrite line found text).outline :=
  inSight_iff_not_buries (selection_settle _) (steady_shows.cursor_settle _)

theorem InSight.setColor_iff (h : e.InSight) (line index : Nat) (value : Text) :
    (e.setColor line index value).1.InSight ↔ ¬e.LosesSight (.setColor line index value) := by
  rw [LosesSight]
  unfold setColor
  split
  · split
    · exact e.inSight_overwrite_iff line _ value
    · exact inSight_iff_not_buries rfl h.cursor
  · exact inSight_iff_not_buries rfl h.cursor

theorem InSight.flipBoolean_iff (h : e.InSight) (line index : Nat) :
    (e.flipBoolean line index).1.InSight ↔ ¬e.LosesSight (.flipBoolean line index) := by
  rw [LosesSight]
  unfold flipBoolean
  split
  · exact e.inSight_overwrite_iff line _ _
  · exact inSight_iff_not_buries rfl h.cursor

theorem InSight.execute_iff (h : e.InSight) (scanned : e.IsScanned) (command : Command) :
    (e.execute command).1.InSight ↔ ¬e.LosesSight command := by
  cases command with
  | setColor line index value => exact h.setColor_iff line index value
  | flipBoolean line index => exact h.flipBoolean_iff line index
  | select anchor head => exact e.inSight_select_iff anchor head
  | _ => exact iff_of_true (h.execute scanned rfl nofun) id

/-- As long as no command loses sight of the cursor or the selection, both are on lines that are
shown; and only such a command takes them away from there. -/
theorem watchful_runs_stay_in_sight (new : start.IsNew) {commands : List Command}
    (watchful : Throughout (fun e command => ¬e.LosesSight command) start commands) :
    (start.run commands).InSight ∧
      ∀ command, ((start.run commands).execute command).1.InSight ↔
        ¬(start.run commands).LosesSight command := by
  have sight : start.InSight := inSight_iff_placed.mpr (steady_shows.placed_of_isNew new)
  have after : (start.run commands).Reachable ∧ (start.run commands).InSight := by
    refine watchful.run_induction (q := fun e => e.Reachable ∧ e.InSight)
      ⟨new.reachable, sight⟩ ?_
    rintro d command ⟨reachable, sight⟩ keeps
    exact ⟨reachable.step command, (sight.execute_iff reachable.isScanned command).mpr keeps⟩
  exact ⟨after.2, after.2.execute_iff after.1.isScanned⟩

def tallList : Text := ['[', '\n', '1', '\n', ']']

theorem watchful_runs_stay_in_sight_tallList :
    let start := ofText .default .still tallList
    let commands := [.toggleCollapse 0, .select ⟨2, 1⟩ ⟨0, 1⟩]
    let e := start.run commands
    start.IsNew ∧ Throughout (fun e command => ¬e.LosesSight command) start commands ∧
      e.InSight ∧ (e.execute (.arrow ⟨false, false, false⟩ .down)).1.InSight ∧
      ¬(e.execute (.select ⟨0, 0⟩ ⟨1, 0⟩)).1.InSight := by
  intro start commands e
  have new : start.IsNew := ⟨.default, .still, .inr ⟨tallList, rfl⟩⟩
  have shown : e.outline.Shows 0 ∧ e.outline.Shows 2 := by decide
  have hidden : ¬e.outline.Shows 1 := by decide
  have watchful : Throughout (fun e command => ¬e.LosesSight command) start commands := by
    refine ⟨id, ?_, trivial⟩
    rintro ⟨p, hp, buried⟩
    rcases List.mem_pair.mp hp with rfl | rfl
    · exact buried shown.2
    · exact buried shown.1
  obtain ⟨sight, next⟩ := watchful_runs_stay_in_sight new watchful
  refine ⟨new, watchful, sight, (next _).mpr id, fun there => ?_⟩
  refine (next _).mp there ⟨⟨1, 0⟩, ?_, hidden⟩
  exact List.mem_cons_of_mem _ List.mem_cons_self

def coloredLists : Text :=
  ['"', 'a', '"', ':', '"', '#', 'f', 'f', 'f', '"', ':', '[', '\n', '\n', ']', ',', '\n',
    '"', '#', '0', '0', '0', '"', ':', '[', '\n', '\n', ']']

/-- A call to select takes the cursor to a line that is hidden. So does a plain arrow after the
first list was given the name of the second one, which is collapsed. -/
theorem select_and_setColor_hide_cursor :
    let folded := ((ofText .default .still tallList).execute (.toggleCollapse 0)).1
    let selected := (folded.execute (.select ⟨2, 1⟩ ⟨1, 0⟩)).1
    let colored := ((ofText .default .still coloredLists).execute (.toggleCollapse 1)).1
    let chosen := (colored.execute (.select ⟨1, 0⟩ ⟨0, 0⟩)).1
    let renamed := (chosen.execute (.setColor 0 0 ['#', '0', '0', '0'])).1
    let moved := (renamed.execute (.arrow ⟨false, false, false⟩ .right)).1
    selected.Reachable ∧ selected.outline.isLineHidden selected.cursor.line ∧
      moved.Reachable ∧ moved.outline.isLineHidden moved.cursor.line := by
  intro folded selected colored chosen renamed moved
  have first : selected.Reachable :=
    ((Reachable.ofText .default .still tallList).step (.toggleCollapse 0)).step (.select _ _)
  have second : moved.Reachable :=
    ((((Reachable.ofText .default .still coloredLists).step (.toggleCollapse 1)).step
      (.select ⟨1, 0⟩ ⟨0, 0⟩)).step (.setColor 0 0 ['#', '0', '0', '0'])).step (.arrow _ .right)
  exact ⟨first, by decide, second, by decide +kernel⟩

end FeatureText.Editor
