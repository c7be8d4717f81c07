import FeatureText.Proofs.Editor.Turn
import FeatureText.Proofs.Outline.Run

/-! The numbers of nodes over a run of commands. A command scans the lines at most once, and so
gives out the numbers that one rebuild would; as long as they do not run out, what is known of the
nodes fits together. -/
namespace FeatureText.Editor

variable {start e e' : Editor} {command : Command} {commands : List Command}

/-- The numbers of the nodes that are new after a command. -/
def minted (e : Editor) (command : Command) : List NodeId :=
  (e.outline.rebuild (e.execute command).1.buffer.lines).2.minted

def mintedOver (e : Editor) : List Command → List NodeId
  | [] => []
  | command :: commands => e.minted command ++ (e.execute command).1.mintedOver commands

theorem Turns.sound (h : Turns e e') (sound : e.outline.Sound)
    (room : e.outline.fresh + (e.outline.rebuild e'.buffer.lines).2.minted.length < Node.idLimit) :
    e'.outline.Sound ∧
      e'.outline.fresh ≤ e.outline.fresh + (e.outline.rebuild e'.buffer.lines).2.minted.length := by
  cases h with
  | folded _ folds =>
    exact ⟨folds.sound sound, folds.refolds.fresh ▸ Nat.le_add_right _ _⟩
  | scanned o before after =>
    rw [← before.refolds.fresh, ← before.refolds.rebuilt] at room ⊢
    obtain ⟨rebuilt, -, fresh⟩ := (before.sound sound).rebuild room
    exact ⟨after.sound rebuilt, Nat.le_of_eq (after.refolds.fresh.trans fresh)⟩

theorem sound_run (sound : e.outline.Sound)
    (room : e.outline.fresh + (e.mintedOver commands).length < Node.idLimit) :
    (e.run commands).outline.Sound ∧
      (e.run commands).outline.fresh ≤ e.outline.fresh + (e.mintedOver commands).length := by
  induction commands generalizing e with
  | nil => exact ⟨sound, Nat.le_refl _⟩
  | cons command commands ih =>
    rw [mintedOver, List.length_append, ← Nat.add_assoc] at room ⊢
    have first := (turns_execute e command).sound sound
      (Nat.lt_of_le_of_lt (Nat.le_add_right _ _) room)
    have later : (e.execute command).1.outline.fresh +
        ((e.execute command).1.mintedOver commands).length ≤
          e.outline.fresh + (e.minted command).length +
            ((e.execute command).1.mintedOver commands).length :=
      Nat.add_le_add_right first.2 _
    have rest := ih first.1 (Nat.lt_of_le_of_lt later room)
    exact ⟨rest.1, rest.2.trans later⟩

theorem IsNew.exists_outline (h : start.IsNew) :
    ∃ lines, start.outline = (Outline.empty.rebuild lines).1 := by
  have blank (options : Options) (clock : Clock) :
      (Editor.new options clock).outline = (Outline.empty.rebuild [[]]).1 :=
    outline_recompute _
  obtain ⟨options, clock, rfl | ⟨text, rfl⟩⟩ := h
  · exact ⟨_, blank options clock⟩
  · have nothing : (Outline.empty.rebuild [[]]).1 = Outline.empty := rfl
    refine ⟨(Buffer.ofText text).lines, ?_⟩
    rw [ofText, outline_recompute, ← nothing]
    exact congrArg (fun o => (Outline.rebuild o _).1) (blank options clock)

theorem IsNew.sound (h : start.IsNew) (room : start.outline.nodes.length < Node.idLimit) :
    start.outline.Sound ∧ start.outline.fresh ≤ start.outline.nodes.length := by
  obtain ⟨lines, scanned⟩ := h.exists_outline
  rw [scanned] at room ⊢
  have few : (Outline.empty.rebuild lines).2.minted.length ≤
      (Outline.empty.rebuild lines).1.nodes.length := by
    cases balanced : Bracket.isBalanced lines with
    | false => simp [Outline.rebuild_of_not_balanced _ balanced]
    | true =>
      rw [Outline.minted_of_balanced _ balanced, List.length_map]
      exact List.length_filter_le _ _
  have small : Outline.empty.fresh + (Outline.empty.rebuild lines).2.minted.length ≤
      (Outline.empty.rebuild lines).1.nodes.length := (Nat.zero_add _).trans_le few
  obtain ⟨sound, -, fresh⟩ := Outline.sound_empty.rebuild (Nat.lt_of_le_of_lt small room)
  exact ⟨sound, fresh.trans_le small⟩

/-- As long as numbers do not run out, what is known of the nodes fits together. -/
theorem IsNew.sound_run (h : start.IsNew)
    (room : start.outline.nodes.length + (start.mintedOver commands).length < Node.idLimit) :
    (start.run commands).outline.Sound := by
  have first := h.sound (Nat.lt_of_le_of_lt (Nat.le_add_right _ _) room)
  exact (Editor.sound_run first.1
    (Nat.lt_of_le_of_lt (Nat.add_le_add_right first.2 _) room)).1

end FeatureText.Editor
