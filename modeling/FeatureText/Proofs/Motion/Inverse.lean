import FeatureText.Proofs.Motion.Progress

/-! Left and right take each other back while no node is collapsed. Both lead from one boundary in
a line to the next, and over the end of a line to the line beside it. -/
namespace FeatureText

namespace Motion

variable {s : Segmentation} {b : Buffer} {o : Outline} {p : Position}

/-- The place is between two parts of its line, in front of the first or behind the last. -/
def OnBoundary (s : Segmentation) (b : Buffer) (p : Position) : Prop :=
  p.line < b.lineCount ∧ s.IsBoundary (b.lineAt p.line) p.column

instance (s : Segmentation) (b : Buffer) (p : Position) : Decidable (OnBoundary s b p) :=
  inferInstanceAs (Decidable (_ ∧ _))

theorem OnBoundary.has (h : OnBoundary s b p) : b.Has p := ⟨h.1, h.2.le_length⟩

section Expanded

variable (expanded : o.collapsedNodes = [])

include expanded

theorem left_of_expanded (lines : List Line) (p : Position) :
    left s lines o p =
      if 0 < p.column then ⟨p.line, s.previous (lineAt lines p.line) p.column⟩
      else if p.line = 0 then p else ⟨p.line - 1, lengthAt lines (p.line - 1)⟩ := by
  simp [left, leftPlain, Outline.collapsedTo?, Outline.hidingNode?, expanded]

theorem right_of_expanded (lines : List Line) (p : Position) :
    right s lines o p =
      if p.column < lengthAt lines p.line then
        ⟨p.line, s.next (lineAt lines p.line) p.column⟩
      else if lastLine lines ≤ p.line then p else ⟨p.line + 1, 0⟩ := by
  simp [right, rightPlain, Outline.collapsedFrom?, Outline.hidingNode?, expanded]

theorem onBoundary_left (h : OnBoundary s b p) : OnBoundary s b (left s b.lines o p) := by
  rw [left_of_expanded expanded]
  split
  · exact ⟨h.1, s.isBoundary_previous _ _⟩
  · split
    · exact h
    · exact ⟨Nat.lt_of_le_of_lt (Nat.sub_le _ _) h.1, s.isBoundary_length _⟩

theorem onBoundary_right (h : OnBoundary s b p) : OnBoundary s b (right s b.lines o p) := by
  rw [right_of_expanded expanded]
  split
  · exact ⟨h.1, s.isBoundary_next _ _⟩
  · split
    · exact h
    · next inner =>
      exact ⟨Nat.add_lt_of_lt_sub (Nat.lt_of_not_le inner), s.isBoundary_zero _⟩

theorem left_right (h : OnBoundary s b p) (inner : p ≠ documentEnd b.lines) :
    left s b.lines o (right s b.lines o p) = p := by
  rw [right_of_expanded expanded, left_of_expanded expanded]
  by_cases short : p.column < lengthAt b.lines p.line
  · have behind := Nat.zero_lt_of_lt (s.lt_next short)
    rw [if_pos short, if_pos behind]
    exact congrArg (Position.mk p.line) (Segmentation.previous_next h.2 short)
  · have full : lengthAt b.lines p.line = p.column :=
      Nat.le_antisymm (Nat.le_of_not_lt short) h.has.2
    have further : ¬lastLine b.lines ≤ p.line :=
      fun last => inner (eq_documentEnd h.has last (Nat.le_of_not_lt short))
    simp [further, full]

theorem right_left (h : OnBoundary s b p) (inner : p ≠ documentStart) :
    right s b.lines o (left s b.lines o p) = p := by
  rw [left_of_expanded expanded, right_of_expanded expanded]
  by_cases further : 0 < p.column
  · have short : s.previous (lineAt b.lines p.line) p.column < lengthAt b.lines p.line :=
      Nat.lt_of_lt_of_le (s.previous_lt _ further) h.has.2
    rw [if_pos further, if_pos short]
    exact congrArg (Position.mk p.line) (Segmentation.next_previous h.2 further)
  · obtain ⟨line, column⟩ := p
    simp only [documentStart, Position.origin, ne_eq, Position.mk.injEq] at further inner
    have above : ¬lastLine b.lines ≤ line - 1 := by
      have there := h.1
      simp only [lastLine, Buffer.lineCount] at there ⊢
      omega
    have front : column = 0 := by omega
    have below : line ≠ 0 := by omega
    have back : line - 1 + 1 = line := by omega
    simp [front, below, above, back]

end Expanded

/-- A step to the left takes a step to the right back, and a step to the right one to the left, but
at the ends of the document. All of them lead to boundaries again. -/
theorem left_and_right_take_back (expanded : o.collapsedNodes = []) (h : OnBoundary s b p) :
    (p ≠ documentEnd b.lines → left s b.lines o (right s b.lines o p) = p) ∧
    (p ≠ documentStart → right s b.lines o (left s b.lines o p) = p) ∧
    OnBoundary s b (right s b.lines o p) ∧ OnBoundary s b (left s b.lines o p) :=
  ⟨left_right expanded h, right_left expanded h, onBoundary_right expanded h,
    onBoundary_left expanded h⟩

def flagList : Buffer := Buffer.ofLines ["[e\u0301".toList, [], "🇩🇪]".toList]

theorem left_and_right_take_back_flagList :
    let o := (Outline.empty.rebuild flagList.lines).1
    o.nodes.length = 1 ∧ o.collapsedNodes = [] ∧ OnBoundary clusters flagList ⟨2, 2⟩ ∧
      left clusters flagList.lines o ⟨2, 2⟩ = ⟨2, 0⟩ ∧
      right clusters flagList.lines o ⟨2, 0⟩ = ⟨2, 2⟩ ∧
      OnBoundary clusters flagList ⟨2, 0⟩ := by
  intro o
  have expanded : o.collapsedNodes = [] := by decide
  have there : OnBoundary clusters flagList ⟨2, 2⟩ := by decide +kernel
  have led : left clusters flagList.lines o ⟨2, 2⟩ = ⟨2, 0⟩ := by decide +kernel
  obtain ⟨-, back, -, boundary⟩ := left_and_right_take_back expanded there
  rw [led] at back boundary
  exact ⟨by decide, expanded, there, led, back (by decide), boundary⟩

end Motion

end FeatureText
