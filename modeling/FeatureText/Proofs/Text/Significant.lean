import FeatureText.Proofs.Text.Fragment
import FeatureText.Text.Significant

/-! Places by significant characters. Where no literal runs on over a line end, a place is carried
over to another text with the same significant characters, and the same of them stand in front of
it there. -/
namespace FeatureText

namespace Significant

/-- The significant characters of a text that begins outside of literals or inside of one. -/
def sift : Where → Text → Text
  | _, [] => []
  | start, c :: rest =>
    let sifted := sift (start.step c) rest
    if start.counts c then c :: sifted else sifted

variable {start : Where} {line : Nat} {lines : List Line} {text other : Text}

theorem outside_step_eq_iff {c : Char} : Where.outside.step c = .outside ↔ c ≠ '"' := by
  by_cases quote : c = '"' <;> simp [Where.step, quote]

theorem sift_append (start : Where) (text other : Text) :
    sift start (text ++ other) = sift start text ++ sift (text.foldl Where.step start) other := by
  induction text generalizing start with
  | nil => rfl
  | cons c text ih =>
    rw [List.cons_append, sift, sift, ih]
    split <;> rfl

theorem length_lineMarks (line : Nat) (start : Where) (column : Nat) (text : Line) :
    (lineMarks line start column text).length = (sift start text).length := by
  induction text generalizing start column with
  | nil => rfl
  | cons c text ih =>
    rw [lineMarks, sift]
    split
    · rw [List.length_cons, List.length_cons, ih]
    · exact ih _ _

theorem length_marksFrom (line : Nat) (start : Where) (lines : List Line) :
    (marksFrom line start lines).length = (sift start lines.flatten).length := by
  induction lines generalizing line start with
  | nil => rfl
  | cons first rest ih =>
    rw [marksFrom, List.length_append, length_lineMarks, ih, List.flatten_cons, sift_append,
      List.length_append]

theorem line_eq_of_mem_lineMarks {column : Nat} {text : Line} {p : Position}
    (h : p ∈ lineMarks line start column text) : p.line = line ∧ column < p.column := by
  induction text generalizing start column with
  | nil => cases h
  | cons c text ih =>
    have later {q : Position} (hq : q ∈ lineMarks line (start.step c) (column + 1) text)
        (same : p = q) : p.line = line ∧ column < p.column := by
      obtain ⟨here, behind⟩ := ih (same ▸ hq)
      exact ⟨here, Nat.lt_of_succ_lt behind⟩
    rw [lineMarks] at h
    split at h
    · rcases List.mem_cons.mp h with rfl | h
      · exact ⟨rfl, Nat.lt_succ_self column⟩
      · exact later h rfl
    · exact later h rfl

theorem line_le_of_mem_marksFrom {p : Position} (h : p ∈ marksFrom line start lines) :
    line ≤ p.line ∧ 0 < p.column := by
  induction lines generalizing line start with
  | nil => cases h
  | cons first rest ih =>
    rcases List.mem_append.mp h with h | h
    · obtain ⟨here, behind⟩ := line_eq_of_mem_lineMarks h
      exact ⟨Nat.le_of_eq here.symm, behind⟩
    · obtain ⟨below, behind⟩ := ih h
      exact ⟨Nat.le_of_succ_le below, behind⟩

theorem pairwise_lineMarks (line : Nat) (start : Where) (column : Nat) (text : Line) :
    (lineMarks line start column text).Pairwise (· < ·) := by
  induction text generalizing start column with
  | nil => exact .nil
  | cons c text ih =>
    rw [lineMarks]
    split
    · refine List.pairwise_cons.mpr ⟨fun p hp => ?_, ih _ _⟩
      obtain ⟨here, behind⟩ := line_eq_of_mem_lineMarks hp
      exact .inr ⟨here.symm, behind⟩
    · exact ih _ _

theorem pairwise_marksFrom (line : Nat) (start : Where) (lines : List Line) :
    (marksFrom line start lines).Pairwise (· < ·) := by
  induction lines generalizing line start with
  | nil => exact .nil
  | cons first rest ih =>
    refine List.pairwise_append.mpr ⟨pairwise_lineMarks .., ih _ _, fun p hp q hq => .inl ?_⟩
    have here := (line_eq_of_mem_lineMarks hp).1
    have below := (line_le_of_mem_marksFrom hq).1
    omega

theorem filter_lineMarks (line : Nat) (start : Where) (column stop : Nat) (text : Line) :
    (lineMarks line start column text).filter (· ≤ ⟨line, stop⟩) =
      lineMarks line start column (text.take (stop - column)) := by
  induction text generalizing start column with
  | nil => simp [lineMarks]
  | cons c text ih =>
    by_cases inside : column < stop
    · have first : (⟨line, column + 1⟩ : Position) ≤ ⟨line, stop⟩ := .inr ⟨rfl, inside⟩
      have count : stop - column = stop - (column + 1) + 1 := by omega
      rw [count, List.take_succ_cons, lineMarks, lineMarks, ← ih]
      split
      · exact List.filter_cons_of_pos (decide_eq_true first)
      · rfl
    · have none : stop - column = 0 := by omega
      rw [none, List.take_zero]
      refine List.filter_eq_nil_iff.mpr fun p hp => ?_
      obtain ⟨here, behind⟩ := line_eq_of_mem_lineMarks hp
      rw [decide_eq_true_eq, Position.le_def]
      simp only [here]
      omega

theorem filter_marksFrom (line : Nat) (start : Where) (lines : List Line) (count column : Nat) :
    (marksFrom line start lines).filter (· ≤ ⟨line + count, column⟩) =
      marksFrom line start (Fragment.before ⟨count, column⟩ lines) := by
  induction lines generalizing line start count with
  | nil => simp [Fragment.before, marksFrom, lineMarks]
  | cons first rest ih =>
    rw [marksFrom, List.filter_append]
    cases count with
    | zero =>
      have below : (marksFrom (line + 1) (first.foldl Where.step start) rest).filter
          (· ≤ ⟨line + 0, column⟩) = [] := by
        refine List.filter_eq_nil_iff.mpr fun p hp => ?_
        have later := (line_le_of_mem_marksFrom hp).1
        simp only [decide_eq_true_eq, Position.le_def]
        omega
      rw [below]
      exact congrArg (· ++ []) (filter_lineMarks line start 0 column first)
    | succ count =>
      have all : (lineMarks line start 0 first).filter (· ≤ ⟨line + (count + 1), column⟩) =
          lineMarks line start 0 first := by
        refine List.filter_eq_self.mpr fun p hp => decide_eq_true (.inl ?_)
        have here := (line_eq_of_mem_lineMarks hp).1
        simp only [here]
        omega
      have later := ih (line + 1) (first.foldl Where.step start) count
      rw [Nat.add_right_comm] at later
      exact congrArg₂ (· ++ ·) all later

theorem takeWhile_eq_filter {marks : List Position} (ordered : marks.Pairwise (· < ·))
    (p : Position) : marks.takeWhile (· ≤ p) = marks.filter (· ≤ p) := by
  induction marks with
  | nil => rfl
  | cons mark marks ih =>
    obtain ⟨first, rest⟩ := List.pairwise_cons.mp ordered
    rw [List.takeWhile_cons, List.filter_cons]
    split
    · rw [ih rest]
    · next behind =>
      refine (List.filter_eq_nil_iff.mpr fun other ho => ?_).symm
      have later := first other ho
      rw [decide_eq_true_eq, Position.le_def] at behind ⊢
      rw [Position.lt_def] at later
      omega

/-- The anchor of a place counts the significant characters in front of it. -/
theorem anchor_eq (lines : List Line) (p : Position) :
    anchor lines p = (sift .outside (Fragment.before p lines).flatten).length := by
  have before := filter_marksFrom 0 .outside lines p.line p.column
  rw [Nat.zero_add] at before
  rw [anchor, marks, takeWhile_eq_filter (pairwise_marksFrom ..), before, length_marksFrom]

theorem takeWhile_getElem {marks : List Position} (ordered : marks.Pairwise (· < ·)) {count : Nat}
    (inside : count < marks.length) :
    (marks.takeWhile (· ≤ marks[count])).length = count + 1 := by
  induction marks generalizing count with
  | nil => cases inside
  | cons mark marks ih =>
    obtain ⟨first, rest⟩ := List.pairwise_cons.mp ordered
    cases count with
    | zero =>
      have here : mark ≤ mark := Position.not_lt.mp (Position.lt_irrefl mark)
      have later : marks.filter (· ≤ mark) = [] := List.filter_eq_nil_iff.mpr fun other ho => by
        simpa using fun back => Position.not_lt.mpr back (first other ho)
      rw [List.getElem_cons_zero, takeWhile_eq_filter ordered,
        List.filter_cons, if_pos (decide_eq_true here), later]
      rfl
    | succ count =>
      have inside := Nat.lt_of_succ_lt_succ inside
      have before : mark ≤ marks[count] :=
        (first _ (List.getElem_mem inside)).imp_right (And.imp_right Nat.le_of_lt)
      rw [List.getElem_cons_succ, List.takeWhile_cons, if_pos (decide_eq_true before),
        List.length_cons, ih rest]

/-- The place of a number of significant characters has as many in front of it. -/
theorem anchor_place {count : Nat} (enough : count ≤ (sift .outside lines.flatten).length) :
    anchor lines (place lines count) = count := by
  cases count with
  | zero =>
    rw [anchor, place, marks, takeWhile_eq_filter (pairwise_marksFrom ..), List.length_eq_zero_iff]
    refine List.filter_eq_nil_iff.mpr fun p hp => ?_
    have behind := (line_le_of_mem_marksFrom hp).2
    rw [decide_eq_true_eq, Position.le_def]
    simp only [Position.origin]
    omega
  | succ count =>
    have inside : count < (marks lines).length := by
      rw [marks, length_marksFrom]
      exact enough
    rw [anchor, place, List.getElem?_eq_getElem inside]
    exact takeWhile_getElem (pairwise_marksFrom ..) inside

theorem flatten_before_append_after (p : Position) (lines : List Line) :
    (Fragment.before p lines).flatten ++ (Fragment.after p lines).flatten = lines.flatten := by
  obtain ⟨count, column⟩ := p
  induction lines generalizing count with
  | nil => simp [Fragment.before, Fragment.after]
  | cons first rest ih =>
    cases count with
    | zero =>
      simp only [Fragment.before, Fragment.after, List.take_zero, List.nil_append,
        List.getD_cons_zero, List.flatten_cons, List.flatten_nil, List.append_nil, Nat.zero_add,
        List.drop_one, List.tail_cons]
      rw [← List.append_assoc, List.take_append_drop]
    | succ count =>
      have later := ih count
      simp only [Fragment.before, Fragment.after] at later ⊢
      rw [List.take_succ_cons, List.cons_append, List.getD_cons_succ, List.drop_succ_cons,
        List.flatten_cons, List.append_assoc, later, List.flatten_cons]

theorem sift_before (lines : List Line) (p : Position) :
    sift .outside (Fragment.before p lines).flatten =
      (sift .outside lines.flatten).take (anchor lines p) := by
  rw [anchor_eq, ← flatten_before_append_after p lines, sift_append, List.take_left]

/-- No literal runs on over the end of a line. -/
def LinesEnd (lines : List Line) : Prop := ∀ line ∈ lines, line.foldl Where.step .outside = .outside

theorem sift_joinLines (ends : LinesEnd lines) (last : Line) :
    sift .outside (joinLines (lines ++ [last])) = sift .outside (lines ++ [last]).flatten := by
  induction lines with
  | nil => simp [joinLines]
  | cons first rest ih =>
    obtain ⟨here, later⟩ := List.forall_mem_cons.mp ends
    obtain ⟨next, more, some⟩ := List.exists_cons_of_ne_nil (l := rest ++ [last]) (by simp)
    have behind := ih later
    rw [some] at behind
    rw [List.cons_append, some, joinLines_cons_cons, List.flatten_cons, sift_append, sift_append,
      here, ← behind]
    rfl

theorem LinesEnd.foldl_flatten (ends : LinesEnd lines) :
    lines.flatten.foldl Where.step .outside = .outside := by
  induction lines with
  | nil => rfl
  | cons line lines ih =>
    obtain ⟨first, rest⟩ := List.forall_mem_cons.mp ends
    rw [List.flatten_cons, List.foldl_append, first, ih rest]

theorem LinesEnd.foldl_joinLines (ends : LinesEnd lines) (last : Line) :
    (joinLines (lines ++ [last])).foldl Where.step .outside =
      last.foldl Where.step .outside := by
  induction lines with
  | nil => rw [List.nil_append, joinLines_singleton]
  | cons line lines ih =>
    obtain ⟨first, rest⟩ := List.forall_mem_cons.mp ends
    obtain ⟨next, more, some⟩ := List.exists_cons_of_ne_nil (l := lines ++ [last]) (by simp)
    have behind := ih rest
    rw [some] at behind
    rw [List.cons_append, some, joinLines_cons_cons, List.foldl_append, first]
    exact behind

theorem sift_subset_cons (start : Where) (c : Char) (text : Text) :
    sift (start.step c) text ⊆ sift start (c :: text) := by
  rw [sift]
  split
  · exact List.subset_cons_self _ _
  · exact List.Subset.refl _

theorem eq_outside_of_newline_not_mem (h : '\n' ∉ sift start ('\n' :: text)) :
    start = .outside := by
  by_contra inside
  have counts : start.counts '\n' := by simp [Where.counts, inside]
  rw [sift, if_pos counts] at h
  exact h List.mem_cons_self

theorem linesEnd_of_newline_not_mem (h : '\n' ∉ sift start (text ++ ['\n'])) {first : Text}
    {more : List Text} (cut : pieces text = first :: more) :
    first.foldl Where.step start = .outside ∧ LinesEnd more := by
  induction text generalizing start first more with
  | nil =>
    obtain ⟨rfl, rfl⟩ := List.cons.inj cut
    exact ⟨eq_outside_of_newline_not_mem h, List.forall_mem_nil _⟩
  | cons c text ih =>
    have rest : '\n' ∉ sift (start.step c) (text ++ ['\n']) := fun hn =>
      h (sift_subset_cons start c _ hn)
    obtain ⟨next, others, found⟩ := exists_pieces_eq_cons text
    obtain ⟨ends, later⟩ := ih rest found
    by_cases hc : c = '\n'
    · subst hc
      obtain rfl := eq_outside_of_newline_not_mem h
      rw [pieces_newline_cons] at cut
      obtain ⟨rfl, rfl⟩ := List.cons.inj cut
      exact ⟨rfl, found ▸ List.forall_mem_cons.mpr ⟨ends, later⟩⟩
    · rw [pieces_cons hc found] at cut
      obtain ⟨rfl, rfl⟩ := List.cons.inj cut
      exact ⟨ends, later⟩

end Significant

open Significant

def significant (text : Text) : Text := sift .outside text

/-- No literal holds a line feed or is left open at the end. -/
def Closes (text : Text) : Prop := '\n' ∉ significant (text ++ ['\n'])

variable {text other : Text}

theorem Closes.linesEnd (h : Closes text) : LinesEnd (pieces text) := by
  obtain ⟨first, more, cut⟩ := exists_pieces_eq_cons text
  exact cut ▸ List.forall_mem_cons.mpr (linesEnd_of_newline_not_mem h cut)

theorem Closes.sift_joinLines_before (h : Closes text) (p : Position) :
    significant (joinLines (Fragment.before p (pieces text))) =
      sift .outside (Fragment.before p (pieces text)).flatten :=
  sift_joinLines (fun line hl => h.linesEnd line (List.mem_of_mem_take hl)) _

theorem Closes.significant_eq (h : Closes text) :
    significant text = sift .outside (pieces text).flatten := by
  have last := List.dropLast_append_getLast (pieces_ne_nil text)
  have joined := sift_joinLines
    (fun line hl => h.linesEnd line (List.dropLast_subset _ hl))
    ((pieces text).getLast (pieces_ne_nil text))
  rwa [last, joinLines_pieces] at joined

theorem Closes.significant_before (h : Closes text) (p : Position) :
    significant (joinLines (Fragment.before p (pieces text))) =
      (significant text).take (anchor (pieces text) p) := by
  rw [h.sift_joinLines_before, sift_before, h.significant_eq]

/-- A place that is carried over by its anchor keeps the significant characters in front of it. -/
theorem significant_before_place (h : Closes text) (ho : Closes other)
    (same : significant text = significant other) (p : Position) :
    significant (joinLines (Fragment.before (place (pieces other) (anchor (pieces text) p))
        (pieces other))) =
      significant (joinLines (Fragment.before p (pieces text))) := by
  have enough : anchor (pieces text) p ≤ (sift .outside (pieces other).flatten).length := by
    rw [← ho.significant_eq, ← same, h.significant_eq, anchor_eq,
      ← flatten_before_append_after p (pieces text), sift_append, List.length_append]
    exact Nat.le_add_right _ _
  rw [h.significant_before, ho.significant_before, anchor_place enough, same]

end FeatureText
