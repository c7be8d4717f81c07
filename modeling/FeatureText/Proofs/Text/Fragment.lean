import FeatureText.Proofs.Text.Line
import FeatureText.Text.Fragment

/-! Places and the text around them. Reading a text moves a place to where the text ends; the lines
before and after that place are the lines of what was read and of what is left. -/
namespace FeatureText

/-- The place behind a text that begins at a place. -/
def Position.advance (p : Position) : Text → Position
  | [] => p
  | c :: text =>
    advance (if c = '\n' then ⟨p.line + 1, 0⟩ else ⟨p.line, p.column + 1⟩) text

namespace Position

theorem advance_append (p : Position) (text other : Text) :
    p.advance (text ++ other) = (p.advance text).advance other := by
  induction text generalizing p with
  | nil => rfl
  | cons c text ih => exact ih _

theorem advance_of_newline_not_mem (p : Position) {text : Text} (h : '\n' ∉ text) :
    p.advance text = ⟨p.line, p.column + text.length⟩ := by
  induction text generalizing p with
  | nil => rfl
  | cons c text ih =>
    rw [List.mem_cons, not_or] at h
    rw [advance, if_neg (Ne.symm h.1), ih _ h.2, List.length_cons]
    simp only [mk.injEq, true_and]
    omega

theorem line_le_advance (p : Position) (text : Text) : p.line ≤ (p.advance text).line := by
  induction text generalizing p with
  | nil => exact Nat.le_refl _
  | cons c text ih =>
    refine Nat.le_trans ?_ (ih _)
    split <;> simp

theorem line_lt_advance_iff (p : Position) (text : Text) :
    p.line < (p.advance text).line ↔ '\n' ∈ text := by
  constructor
  · intro later
    by_contra absent
    rw [advance_of_newline_not_mem p absent] at later
    exact Nat.lt_irrefl _ later
  · intro there
    obtain ⟨front, back, rfl⟩ := List.append_of_mem there
    rw [advance_append, advance, if_pos rfl]
    have before := line_le_advance p front
    have behind := line_le_advance ⟨(p.advance front).line + 1, 0⟩ back
    exact Nat.lt_of_lt_of_le (Nat.lt_succ_of_le before) behind

theorem line_advance (p : Position) (text : Text) :
    (p.advance text).line = p.line + text.count '\n' := by
  induction text generalizing p with
  | nil => rfl
  | cons c text ih =>
    rw [advance, ih]
    by_cases newline : c = '\n'
    · simp only [newline, if_true, List.count_cons_self]
      omega
    · simp [newline]

theorem le_trans {p q r : Position} (h : p ≤ q) (h' : q ≤ r) : p ≤ r := by
  rw [le_def] at *
  omega

theorem not_lt {p q : Position} : ¬q < p ↔ p ≤ q := by
  rw [le_def, lt_def]
  omega

theorem line_le {p q : Position} (h : p ≤ q) : p.line ≤ q.line := by
  rw [le_def] at h
  omega

theorem le_of_not_le {p q : Position} (h : ¬p ≤ q) : q ≤ p := by
  rw [le_def] at *
  omega

theorem lt_or_eq_of_le {p q : Position} (h : p ≤ q) : p < q ∨ p = q := by
  cases p
  cases q
  simp only [le_def, lt_def, mk.injEq] at *
  omega

theorem lt_advance (p : Position) {text : Text} (some : text ≠ []) : p < p.advance text := by
  induction text generalizing p with
  | nil => exact absurd rfl some
  | cons c text ih =>
    have first : p < p.advance [c] := by
      rw [advance, advance, lt_def]
      split <;> simp
    cases text with
    | nil => exact first
    | cons d text => exact lt_trans first (ih _ (by simp))

theorem le_advance (p : Position) (text : Text) : p ≤ p.advance text := by
  cases text with
  | nil => exact .inr ⟨rfl, Nat.le_refl _⟩
  | cons c text => exact (p.lt_advance (by simp)).imp_right (And.imp_right Nat.le_of_lt)

end Position

namespace Fragment

theorem stop_cons_cons (line next : Line) (lines : List Line) :
    stop (line :: next :: lines) =
      ⟨(stop (next :: lines)).line + 1, (stop (next :: lines)).column⟩ := rfl

theorem pieces_append_eq_glue (text other : Text) :
    pieces (text ++ other) = glue (pieces text) (pieces other) := by
  obtain ⟨first, rest, ho⟩ := exists_pieces_eq_cons other
  induction text with
  | nil => rw [List.nil_append, ho]; rfl
  | cons c text ih =>
    obtain ⟨piece, more, hp⟩ := exists_pieces_eq_cons text
    by_cases hc : c = '\n'
    · rw [hc, List.cons_append, pieces_newline_cons, pieces_newline_cons, ih,
        glue_cons_of_ne_nil _ _ (pieces_ne_nil text)]
    · rw [pieces_cons hc hp, List.cons_append]
      rw [hp, ho] at ih
      rw [ho]
      cases more with
      | nil => exact pieces_cons hc ih
      | cons next more => exact pieces_cons hc ih

theorem advance_eq_stop (p : Position) (text : Text) :
    p.advance text =
      if (stop (pieces text)).line = 0 then ⟨p.line, p.column + (stop (pieces text)).column⟩
      else ⟨p.line + (stop (pieces text)).line, (stop (pieces text)).column⟩ := by
  induction text generalizing p with
  | nil => rfl
  | cons c text ih =>
    obtain ⟨piece, more, hp⟩ := exists_pieces_eq_cons text
    rw [Position.advance, ih]
    by_cases hc : c = '\n'
    · rw [if_pos hc, hc, pieces_newline_cons, hp, stop_cons_cons]
      rw [if_neg (Nat.succ_ne_zero _)]
      split
      · next none => simp [none]
      · simp only [Position.mk.injEq, and_true]
        omega
    · rw [if_neg hc, pieces_cons hc hp, hp]
      cases more with
      | nil =>
        simp only [stop, if_true, List.length_cons, Position.mk.injEq, true_and]
        omega
      | cons next more =>
        rw [stop_cons_cons, stop_cons_cons]
        simp

theorem stop_pieces (text : Text) : stop (pieces text) = Position.origin.advance text := by
  rw [advance_eq_stop, Position.origin, Nat.zero_add, Nat.zero_add]
  split
  · next none => rw [← none]
  · rfl

theorem before_stop_glue {left right : List Line} (hl : left ≠ []) (hr : right ≠ []) :
    before (stop left) (glue left right) = left := by
  induction left with
  | nil => exact absurd rfl hl
  | cons line left ih =>
    cases left with
    | nil =>
      obtain ⟨first, more, rfl⟩ := List.exists_cons_of_ne_nil hr
      simp [before, stop]
    | cons next left =>
      rw [glue_cons_of_ne_nil _ _ (by simp), stop_cons_cons]
      have := ih (by simp)
      simp only [before] at this ⊢
      rw [List.take_succ_cons, List.cons_append, List.getD_cons_succ, this]

theorem after_stop_glue {left right : List Line} (hl : left ≠ []) (hr : right ≠ []) :
    after (stop left) (glue left right) = right := by
  induction left with
  | nil => exact absurd rfl hl
  | cons line left ih =>
    cases left with
    | nil =>
      obtain ⟨first, more, rfl⟩ := List.exists_cons_of_ne_nil hr
      simp [after, stop]
    | cons next left =>
      rw [glue_cons_of_ne_nil _ _ (by simp), stop_cons_cons]
      have := ih (by simp)
      simp only [after] at this ⊢
      rw [List.getD_cons_succ, List.drop_succ_cons, this]

theorem before_advance (front back : Text) :
    before (Position.origin.advance front) (pieces (front ++ back)) = pieces front := by
  rw [pieces_append_eq_glue, ← stop_pieces]
  exact before_stop_glue (pieces_ne_nil front) (pieces_ne_nil back)

theorem after_advance (front back : Text) :
    after (Position.origin.advance front) (pieces (front ++ back)) = pieces back := by
  rw [pieces_append_eq_glue, ← stop_pieces]
  exact after_stop_glue (pieces_ne_nil front) (pieces_ne_nil back)

theorem column_advance_lt (front : Text) {c : Char} (solid : c ≠ '\n') (back : Text) :
    (Position.origin.advance front).column <
      ((pieces (front ++ c :: back)).getD (Position.origin.advance front).line []).length := by
  obtain ⟨piece, more, hp⟩ := exists_pieces_eq_cons back
  have behind := after_advance front (c :: back)
  rw [pieces_cons solid hp] at behind
  have rest := (List.cons.inj behind).1
  by_contra outside
  rw [List.drop_eq_nil_of_le (Nat.not_lt.mp outside)] at rest
  cases rest

theorem glue_before_after {lines : List Line} {p : Position} (inside : p.line < lines.length) :
    glue (before p lines) (after p lines) = lines := by
  obtain ⟨line, column⟩ := p
  induction line generalizing lines with
  | zero =>
    obtain ⟨first, more, rfl⟩ := List.exists_cons_of_length_pos inside
    simp [before, after]
  | succ line ih =>
    obtain ⟨first, more, rfl⟩ := List.exists_cons_of_length_pos (Nat.zero_lt_of_lt inside)
    have rest := ih (Nat.lt_of_succ_lt_succ inside)
    simp only [before, after] at rest ⊢
    rw [List.take_succ_cons, List.cons_append, glue_cons_of_ne_nil _ _ (by simp),
      List.getD_cons_succ, List.drop_succ_cons, rest]

theorem stop_before {lines : List Line} {p : Position} (inside : p.line < lines.length)
    (fits : p.column ≤ (lines.getD p.line []).length) : stop (before p lines) = p := by
  obtain ⟨line, column⟩ := p
  induction line generalizing lines with
  | zero =>
    obtain ⟨first, more, rfl⟩ := List.exists_cons_of_length_pos inside
    have whole : (first.take column).length = column := List.length_take_of_le fits
    simp only [before, stop, List.take_zero, List.nil_append, List.getD_cons_zero, whole]
  | succ line ih =>
    obtain ⟨first, more, rfl⟩ := List.exists_cons_of_length_pos (Nat.zero_lt_of_lt inside)
    have rest := ih (Nat.lt_of_succ_lt_succ inside) fits
    have whole : before ⟨line + 1, column⟩ (first :: more) =
        first :: before ⟨line, column⟩ more := rfl
    obtain ⟨next, others, some⟩ := List.exists_cons_of_ne_nil (before_ne_nil ⟨line, column⟩ more)
    rw [whole]
    rw [some] at rest ⊢
    rw [stop_cons_cons, rest]

/-- What stands between two places of a text. -/
theorem joinLines_after_before (front segment back : Text) :
    joinLines (after (Position.origin.advance front)
        (before (Position.origin.advance (front ++ segment)) (pieces (front ++ segment ++ back)))) =
      segment := by
  rw [before_advance, after_advance, joinLines_pieces]

end Fragment

end FeatureText
