import FeatureText.Motion
import FeatureText.Proofs.Outline.Nesting
import FeatureText.Proofs.Text.Buffer
import FeatureText.Proofs.Text.Segmentation

/-! Motions stay in the buffer. From a place in it every key leads to a place in it, as the brackets
of all nodes are there too; and from a place behind the end of a line none leads further behind. -/
namespace FeatureText

namespace Buffer

variable {b : Buffer}

/-- The place is on a line of the buffer, and at most so far behind its end. -/
def Within (b : Buffer) (slack : Nat) (p : Position) : Prop :=
  p.line < b.lineCount ∧ p.column ≤ b.lineLength p.line + slack

theorem Has.within {p : Position} (h : b.Has p) (slack : Nat) : b.Within slack p :=
  ⟨h.1, Nat.le_add_right_of_le h.2⟩

theorem has_of_charAt? {p : Position} {c : Char} (h : charAt? b.lines p = some c) :
    b.Has p ∧ b.Has ⟨p.line, p.column + 1⟩ := by
  have column : p.column < b.lineLength p.line := (List.getElem?_eq_some_iff.mp h).1
  have line : p.line < b.lineCount := by
    apply Nat.lt_of_not_le
    intro outside
    rw [lineLength_eq_zero outside] at column
    exact absurd column (Nat.not_lt_zero _)
  exact ⟨⟨line, Nat.le_of_lt column⟩, line, column⟩

end Buffer

/-- All nodes begin and end in the buffer. -/
def Outline.Fits (o : Outline) (b : Buffer) : Prop :=
  ∀ n ∈ o.nodes, b.Has n.start ∧ b.Has (Motion.pastEnd n)

theorem Outline.fits_rebuild (o : Outline) (b : Buffer) : (o.rebuild b.lines).1.Fits b := by
  intro n hn
  obtain ⟨start, stop, -⟩ := mem_brackets_of_mem_nodes hn
  exact ⟨(Buffer.has_of_charAt? (Token.charAt?_of_mem_brackets start)).1,
    (Buffer.has_of_charAt? (Token.charAt?_of_mem_brackets stop)).2⟩

theorem Outline.Fits.of_find? {o : Outline} {b : Buffer} (fits : o.Fits b) {n : Node}
    {choose : Node → Bool} (found : o.collapsedNodes.find? choose = some n) :
    b.Has n.start ∧ b.Has (Motion.pastEnd n) :=
  fits n (List.mem_of_mem_filter (List.mem_of_find?_eq_some found))

namespace Motion

variable {s : Segmentation} {b : Buffer} {o : Outline} {p : Position}

theorem has_documentEnd (b : Buffer) : b.Has (documentEnd b.lines) := b.has_stop

theorem has_snap (fits : o.Fits b) (p : Position) : b.Has (snap b.lines o p) := by
  unfold snap
  dsimp only
  split
  · next n found => exact (fits.of_find? found).1
  · exact b.has_clamp p

theorem wordReach_le (text : Line) : wordReach text ≤ text.length := by
  have gap := (List.takeWhile_prefix (fun c => !isWordChar c) (l := text)).length_le
  have word := (List.takeWhile_prefix isWordChar (l := text.drop
    (text.takeWhile fun c => !isWordChar c).length)).length_le
  rw [List.length_drop] at word
  rw [wordReach]
  omega

theorem has_down (fits : o.Fits b) (p : Position) : b.Has (down b.lines o p) := by
  unfold down
  split
  · exact has_documentEnd b
  · next inner =>
    refine ⟨?_, Nat.min_le_right _ _⟩
    cases found : o.hidingNode? (p.line + 1) with
    | none => exact Nat.add_lt_of_lt_sub (Nat.lt_of_not_le inner)
    | some n => exact (fits.of_find? found).2.1

section Fits

variable (slack : Nat) (fits : o.Fits b) (h : b.Within slack p)

include fits h

theorem within_leftPlain : b.Within slack (leftPlain s b.lines o p) := by
  unfold leftPlain
  split
  · exact ⟨h.1, Nat.le_trans (s.previous_le _ _) h.2⟩
  · split
    · exact h
    · split
      · next n found => exact (fits.of_find? found).1.within slack
      · exact (Buffer.has_lineEnd (Nat.lt_of_le_of_lt (Nat.sub_le _ _) h.1)).within slack

theorem within_left : b.Within slack (left s b.lines o p) := by
  unfold left
  split
  · next n found =>
    split
    · exact (fits.of_find? found).1.within slack
    · exact within_leftPlain slack fits h
  · exact within_leftPlain slack fits h

theorem within_rightPlain : b.Within slack (rightPlain s b.lines o p) := by
  unfold rightPlain
  split
  · exact ⟨h.1, Nat.le_add_right_of_le (s.next_le _ _)⟩
  · split
    · exact h
    · next inner =>
      split
      · next n found => exact (Buffer.has_lineStart (fits.of_find? found).2.1).within slack
      · exact (Buffer.has_lineStart (Nat.add_lt_of_lt_sub (Nat.lt_of_not_le inner))).within slack

theorem within_right : b.Within slack (right s b.lines o p) := by
  unfold right
  split
  · next n found =>
    split
    · exact (fits.of_find? found).2.within slack
    · exact within_rightPlain slack fits h
  · exact within_rightPlain slack fits h

theorem has_up : b.Has (up b.lines o p) := by
  unfold up
  split
  · exact b.has_origin
  · refine ⟨?_, Nat.min_le_right _ _⟩
    cases found : o.hidingNode? (p.line - 1) with
    | none => exact Nat.lt_of_le_of_lt (Nat.sub_le _ _) h.1
    | some n => exact (fits.of_find? found).1.1

theorem within_wordRight : b.Within slack (wordRight s b.lines o p) := by
  unfold wordRight
  split
  · exact within_right slack fits h
  · next inner =>
    have reach : b.Has ⟨p.line, p.column + wordReach ((lineAt b.lines p.line).drop p.column)⟩ := by
      refine ⟨h.1, ?_⟩
      have bound := wordReach_le ((lineAt b.lines p.line).drop p.column)
      rw [List.length_drop] at bound
      exact Nat.add_le_of_le_sub' (Nat.le_of_not_le inner) bound
    dsimp only
    split
    · next n found =>
      split
      · exact (fits.of_find? found).2.within slack
      · exact reach.within slack
    · exact reach.within slack

theorem within_wordLeft : b.Within slack (wordLeft s b.lines o p) := by
  unfold wordLeft
  split
  · exact within_left slack fits h
  · have column (reach : Nat) :
        b.Has ⟨p.line, ((lineAt b.lines p.line).take p.column).length - reach⟩ :=
      ⟨h.1, Nat.le_trans (Nat.sub_le _ _) (List.length_take_le' _ _)⟩
    dsimp only
    split
    · next n found =>
      split
      · exact (fits.of_find? found).1.within slack
      · exact (column _).within slack
    · exact (column _).within slack

theorem within_arrow (m : Modifiers) (key : Arrow) :
    b.Within slack (arrow s b.lines o p m key) := by
  cases key with
  | left =>
    rw [arrow]
    split
    · exact within_wordLeft slack fits h
    · exact within_left slack fits h
  | right =>
    rw [arrow]
    split
    · exact within_wordRight slack fits h
    · exact within_right slack fits h
  | up =>
    rw [arrow]
    split
    · exact b.has_origin.within slack
    · exact (has_up slack fits h).within slack
  | down =>
    rw [arrow]
    split
    · exact (has_documentEnd b).within slack
    · exact (has_down fits p).within slack

end Fits

theorem has_edge (line : p.line < b.lineCount) (m : Modifiers) (key : Edge) :
    b.Has (edge b.lines p m key) := by
  cases key with
  | start =>
    rw [edge]
    split
    · exact b.has_origin
    · exact Buffer.has_lineStart line
  | stop =>
    rw [edge]
    split
    · exact has_documentEnd b
    · exact Buffer.has_lineEnd line

end Motion

end FeatureText
