import FeatureText.Proofs.Editor.Turn
import FeatureText.Proofs.Editor.InSight
import FeatureText.Proofs.Editor.UndoStep

/-! Detours through text whose brackets do not match. What is known of the nodes, what is collapsed
and what is hidden lie asleep there: typing changes none of it, and the text cannot be read and so
is not formatted. When the lines are back, all is found again. -/
namespace FeatureText

namespace Command

/-- A command that tells what is due, or lets time pass until something is. -/
def isTimely : Command → Bool
  | .emit | .poll | .advanceClock _ | .setClock _ => true
  | _ => false

def isDetour (command : Command) : Bool :=
  command.isTyping || command.isSteering || command.isTimely

end Command

namespace Editor

/-- What is known of the second editor's nodes and features is what it was in the first, whether or
not the brackets match. -/
structure Sleeps (s e : Editor) : Prop where
  outline : ∃ balanced, e.outline = { s.outline with balanced }
  hidden : e.hidden = s.hidden

/-- The lines stay, or a draft is settled; no node is expanded. -/
inductive Passes (e : Editor) : Editor → Prop where
  | rested {e' : Editor} (buffer : e'.buffer = e.buffer) (outline : e'.outline = e.outline)
      (hidden : e'.hidden = e.hidden) : Passes e e'
  | settled {draft : Editor} (outline : draft.outline = e.outline)
      (hidden : draft.hidden = e.hidden) : Passes e draft.settle

variable {s e e' : Editor} {command : Command} {commands : List Command}

theorem Synced.not_readable (h : Synced e) (broken : Bracket.isBalanced e.buffer.lines = false)
    (features : List Json) : parseFeatures e.buffer.text ≠ .ok features := by
  intro read
  have balanced := isBalanced_of_parseFeatures read
  rw [h.pieces_text, broken] at balanced
  cases balanced

theorem Synced.review_of_not_balanced (h : Synced e)
    (broken : Bracket.isBalanced e.buffer.lines = false) : e.review.1 = e := by
  unfold review
  dsimp only
  split
  · rfl
  · next read => exact absurd read (h.not_readable broken _)

theorem Types.passes (h : Types e e') (kept : e.outline.collapsed ⊆ e'.outline.collapsed) :
    Passes e e' := by
  cases h with
  | rested selection => exact .rested rfl rfl rfl
  | settled loosens =>
    obtain ⟨ids, -, outline⟩ := loosens.outline
    refine .settled (outline.trans ?_) loosens.hidden
    rw [outline_settle, outline] at kept
    have stays : e.outline.collapsed.filter (!ids.contains ·) = e.outline.collapsed :=
      List.filter_eq_self.mpr fun id hi =>
        (List.mem_filter.mp (Outline.collapsed_rebuild_subset _ _ (kept hi))).2
    rw [Outline.expandEach, stays]

theorem passes_steering (e : Editor) (steering : command.isSteering) :
    Passes e (e.execute command).1 := by
  cases command with
  | setCursor | select | selectAll | edge => exact .rested rfl rfl rfl
  | arrow m key =>
    change Passes e (e.arrow m key)
    unfold arrow
    split <;> exact .rested rfl rfl rfl
  | _ => cases steering

section Broken

variable (synced : Synced e) (broken : Bracket.isBalanced e.buffer.lines = false)

include synced broken

theorem passes_emit : Passes e e.emit.1 := by
  have waiting : Synced { e with emission := e.emission.cancel } := synced.of_agrees rfl
  have same := waiting.review_of_not_balanced broken
  change Passes e ({ e with emission := e.emission.cancel }.review.1.deliver _)
  rw [same]
  exact .rested rfl rfl rfl

theorem passes_poll : Passes e (e.execute .poll).1 := by
  by_cases due : e.emission.isDue e.clock.now
  · rw [execute_poll_of_due due]
    exact passes_emit synced broken
  · have same : (e.execute .poll).1 = e := by
      simp only [execute, andAnswer, poll, Debouncer.fire, if_neg due]
    rw [same]
    exact .rested rfl rfl rfl

theorem passes_execute (detour : command.isDetour) : Passes e (e.execute command).1 := by
  rw [Command.isDetour, Bool.or_eq_true, Bool.or_eq_true] at detour
  rcases detour with (typing | steering) | timely
  · have none : e.outline.nodes = [] := if_neg (by simp [synced.balanced, broken])
    have types := types_execute (e := e) typing
    generalize (e.execute command).1 = e' at types ⊢
    cases types with
    | rested selection => exact .rested rfl rfl rfl
    | settled loosens => exact .settled (loosens.outline_eq none) loosens.hidden
  · exact passes_steering e steering
  · cases command with
    | emit => exact passes_emit synced broken
    | poll => exact passes_poll synced broken
    | advanceClock | setClock => exact .rested rfl rfl rfl
    | _ => cases timely

end Broken

theorem Reachable.hidden_of_lines (h : s.Reachable) (balanced : Bracket.isBalanced s.buffer.lines) :
    ∀ key ∈ s.hidden.keys, ∃ r ∈ FeatureRange.ofLines s.buffer.lines, r.key = key := by
  have matches_ := h.synced.balanced.trans balanced
  have ranges := h.synced.ranges
  rw [if_pos matches_] at ranges
  exact ranges ▸ h.synced.hidden matches_

/-- What sleeps goes on sleeping, and wakes up where the lines are back. -/
theorem Sleeps.passes (h : Sleeps s e) (origin : s.Reachable) (passes : Passes e e')
    (lines : Bracket.isBalanced e'.buffer.lines = false ∨ e'.buffer.lines = s.buffer.lines) :
    Sleeps s e' := by
  obtain ⟨flag, outline⟩ := h.outline
  cases passes with
  | rested _ same hidden => exact ⟨⟨flag, same.trans outline⟩, hidden.trans h.hidden⟩
  | @settled draft same hidden =>
    rw [buffer_settle] at lines
    have asleep : draft.outline = { s.outline with balanced := flag } := same.trans outline
    have shown : draft.hidden = s.hidden := hidden.trans h.hidden
    have returned (balanced : Bracket.isBalanced draft.buffer.lines) :
        draft.buffer.lines = s.buffer.lines := lines.resolve_left (by simp [balanced])
    have stays : draft.settle.hidden = draft.hidden := by
      refine hidden_recompute_eq_self (e := { draft with version := draft.version + 1 })
        fun balanced => ?_
      change ∀ key ∈ draft.hidden.keys, ∃ r ∈ FeatureRange.ofLines draft.buffer.lines, r.key = key
      rw [returned balanced, shown]
      exact origin.hidden_of_lines (returned balanced ▸ balanced)
    refine ⟨?_, stays.trans shown⟩
    rw [outline_settle, asleep]
    cases balanced : Bracket.isBalanced draft.buffer.lines with
    | false => exact ⟨false, congrArg Prod.fst (Outline.rebuild_of_not_balanced _ balanced)⟩
    | true =>
      obtain ⟨o, scanned⟩ := origin.isScanned
      have same := returned balanced
      refine ⟨s.outline.balanced, ?_⟩
      rw [same] at balanced ⊢
      exact Outline.rebuild_eq_self scanned origin.isLive balanced flag

theorem Sleeps.run (h : Sleeps s e) (origin : s.Reachable) (reachable : e.Reachable)
    (detour : ∀ command ∈ commands, command.isDetour)
    (broken : Throughout (fun e _ => Bracket.isBalanced e.buffer.lines = false) e commands)
    (back : (e.run commands).buffer.lines = s.buffer.lines) : Sleeps s (e.run commands) := by
  induction commands generalizing e with
  | nil => exact h
  | cons command more ih =>
    obtain ⟨first, others⟩ := List.forall_mem_cons.mp detour
    have passes := passes_execute reachable.synced broken.1 first
    refine ih (h.passes origin passes ?_) (reachable.step command) others broken.2 back
    cases more with
    | nil => exact .inr back
    | cons next more => exact .inl broken.2.1

theorem Sleeps.wakes (h : Sleeps s e) (origin : Synced s) (synced : Synced e)
    (back : e.buffer.lines = s.buffer.lines) :
    e.outline = s.outline ∧ e.hidden = s.hidden ∧ e.ranges = s.ranges ∧ e.metas = s.metas ∧
      e.visible = s.visible := by
  have balanced : e.outline.balanced = s.outline.balanced := by
    rw [synced.balanced, origin.balanced, back]
  have outline : e.outline = s.outline := by
    obtain ⟨flag, eq⟩ := h.outline
    have same : flag = s.outline.balanced := (congrArg Outline.balanced eq).symm.trans balanced
    rw [eq, same]
  have ranges : e.ranges = s.ranges := by rw [synced.ranges, origin.ranges, back, outline]
  have metas : e.metas = s.metas := by
    rw [synced.metas, origin.metas, back, outline, ranges, h.hidden]
  exact ⟨outline, h.hidden, ranges, metas, by rw [synced.visible, origin.visible, back, metas]⟩

/-- A detour through text whose brackets do not match, begun by typing that expands no node, loses
neither numbers nor what was collapsed or hidden. -/
theorem detour_loses_nothing {first : Command} {rest : List Command} (reachable : s.Reachable)
    (typing : first.isTyping) (detour : ∀ command ∈ rest, command.isDetour)
    (kept : s.outline.collapsed ⊆ (s.execute first).1.outline.collapsed)
    (broken : Throughout (fun e _ => Bracket.isBalanced e.buffer.lines = false)
      (s.execute first).1 rest)
    (back : (s.run (first :: rest)).buffer.lines = s.buffer.lines) :
    (s.run (first :: rest)).outline = s.outline ∧ (s.run (first :: rest)).hidden = s.hidden ∧
      (s.run (first :: rest)).ranges = s.ranges ∧ (s.run (first :: rest)).metas = s.metas ∧
      (s.run (first :: rest)).visible = s.visible := by
  have awake : Sleeps s s := ⟨⟨s.outline.balanced, rfl⟩, rfl⟩
  have asleep : Sleeps s (s.execute first).1 := by
    refine awake.passes reachable ((types_execute typing).passes kept) ?_
    cases rest with
    | nil => exact .inr back
    | cons next more => exact .inl broken.1
  have sleeps := asleep.run reachable (reachable.step first) detour broken back
  exact sleeps.wakes reachable.synced ((reachable.step first).run rest).synced back

def foldedList : Editor := ((ofText .default .still tallList).execute (.toggleCollapse 0)).1

theorem detour_loses_nothing_foldedList :
    let rest := [.arrow ⟨false, false, false⟩ .left, .poll, .deleteForward]
    let e := foldedList.run (.insertText ['}'] :: rest)
    foldedList.Reachable ∧ (foldedList.execute (.insertText ['}'])).1.outline.nodes = [] ∧
      e.outline.collapsedNodes.map Node.id = [0] ∧ e.visible = foldedList.visible := by
  intro rest e
  have reachable : foldedList.Reachable :=
    (Reachable.ofText .default .still tallList).step (.toggleCollapse 0)
  have typing : (Command.insertText ['}']).isTyping := rfl
  have detour : ∀ command ∈ rest, command.isDetour := List.all_eq_true.mp rfl
  have kept : foldedList.outline.collapsed ⊆
      (foldedList.execute (.insertText ['}'])).1.outline.collapsed := by decide +kernel
  have broken : Throughout (fun e _ => Bracket.isBalanced e.buffer.lines = false)
      (foldedList.execute (.insertText ['}'])).1 rest :=
    ⟨by decide +kernel, by decide +kernel, by decide +kernel, trivial⟩
  have back : e.buffer.lines = foldedList.buffer.lines := by decide +kernel
  obtain ⟨outline, -, -, -, visible⟩ :=
    detour_loses_nothing reachable typing detour kept broken back
  have collapsed : foldedList.outline.collapsedNodes.map Node.id = [0] := by decide +kernel
  refine ⟨reachable, by decide +kernel, ?_, visible⟩
  rw [outline, collapsed]

end Editor

end FeatureText
