import FeatureText.Proofs.Bracket.Column
import FeatureText.Proofs.Text.Significant

/-! Counting significant characters up to a place, and going to the place behind a number of them.
One is the lower adjoint of the other, so each takes the other back as far as that can be. -/
namespace FeatureText

namespace Significant

variable {lines : List Line} {start : Where} {p q : Position}

/-- The character at a place counts, in lines that begin outside of literals or inside of one. -/
def IsSignificant (start : Where) (lines : List Line) (p : Position) : Prop :=
  ∃ c, charAt? lines p = some c ∧
    ((Fragment.before p lines).flatten.foldl Where.step start).counts c

def total (lines : List Line) : Nat := (sift .outside lines.flatten).length

theorem length_marks (lines : List Line) : (marks lines).length = total lines :=
  length_marksFrom 0 .outside lines

theorem mem_lineMarks_iff {line column : Nat} {text : Line} :
    p ∈ lineMarks line start column text ↔ ∃ i c, text[i]? = some c ∧
      ((text.take i).foldl Where.step start).counts c ∧ p = ⟨line, column + i + 1⟩ := by
  induction text generalizing start column with
  | nil => simp [lineMarks]
  | cons c text ih =>
    have first : (∃ d, (c :: text)[0]? = some d ∧ start.counts d ∧ p = ⟨line, column + 0 + 1⟩) ↔
        start.counts c ∧ p = ⟨line, column + 1⟩ := by simp
    have later : p ∈ lineMarks line (start.step c) (column + 1) text ↔ _ := ih
    rw [← Nat.or_exists_add_one]
    simp only [List.getElem?_cons_succ, List.take_zero, List.foldl_nil, List.take_succ_cons,
      List.foldl_cons, first]
    simp only [Nat.add_right_comm column 1] at later
    rw [lineMarks]
    split
    · next counts => simp [counts, later, Nat.add_assoc]
    · next silent => simp [silent, later, Nat.add_assoc]

theorem isSignificant_zero {first : Line} {rest : List Line} {column : Nat} :
    IsSignificant start (first :: rest) ⟨0, column⟩ ↔
      ∃ c, first[column]? = some c ∧ ((first.take column).foldl Where.step start).counts c := by
  simp [IsSignificant, charAt?, Fragment.before]

theorem isSignificant_succ {first : Line} {rest : List Line} {line column : Nat} :
    IsSignificant start (first :: rest) ⟨line + 1, column⟩ ↔
      IsSignificant (first.foldl Where.step start) rest ⟨line, column⟩ := by
  simp [IsSignificant, charAt?, Fragment.before]

theorem mem_marksFrom_iff {line : Nat} :
    p ∈ marksFrom line start lines ↔
      ∃ q, IsSignificant start lines q ∧ p = ⟨line + q.line, q.column + 1⟩ := by
  induction lines generalizing line start with
  | nil => simp [marksFrom, IsSignificant, charAt?]
  | cons first rest ih =>
    rw [marksFrom, List.mem_append, mem_lineMarks_iff, ih]
    constructor
    · rintro (⟨i, c, there, counts, rfl⟩ | ⟨q, significant, rfl⟩)
      · refine ⟨⟨0, i⟩, isSignificant_zero.mpr ⟨c, there, counts⟩, ?_⟩
        simp
      · refine ⟨⟨q.line + 1, q.column⟩, isSignificant_succ.mpr significant, ?_⟩
        simp only [Position.mk.injEq, and_true]
        omega
    · rintro ⟨⟨_ | below, column⟩, significant, rfl⟩
      · obtain ⟨c, there, counts⟩ := isSignificant_zero.mp significant
        exact .inl ⟨column, c, there, counts, by simp⟩
      · refine .inr ⟨⟨below, column⟩, isSignificant_succ.mp significant, ?_⟩
        simp only [Position.mk.injEq, and_true]
        omega

/-- The marks are the places just past the characters that count. -/
theorem mem_marks_iff :
    p ∈ marks lines ↔ ∃ q, IsSignificant .outside lines q ∧ p = ⟨q.line, q.column + 1⟩ := by
  rw [marks, mem_marksFrom_iff]
  simp

theorem le_documentEnd_of_mem_marks (h : p ∈ marks lines) :
    p ≤ ⟨lines.length - 1, (lines.getD (lines.length - 1) []).length⟩ := by
  obtain ⟨q, ⟨c, there, -⟩, rfl⟩ := mem_marks_iff.mp h
  obtain ⟨column, -⟩ := List.getElem?_eq_some_iff.mp there
  have line : q.line < lines.length := by
    by_contra outside
    rw [List.getD_eq_getElem?_getD, List.getElem?_eq_none (Nat.not_lt.mp outside)] at column
    exact absurd column (Nat.not_lt_zero _)
  rw [Position.le_def]
  by_cases last : q.line = lines.length - 1
  · exact .inr ⟨last, last ▸ column⟩
  · exact .inl (by simp only; omega)

theorem lt_length_takeWhile_iff {marks : List Position} (ordered : marks.Pairwise (· < ·))
    (p : Position) {i : Nat} (inside : i < marks.length) :
    i < (marks.takeWhile (· ≤ p)).length ↔ marks[i] ≤ p := by
  induction marks generalizing i with
  | nil => cases inside
  | cons mark marks ih =>
    obtain ⟨first, rest⟩ := List.pairwise_cons.mp ordered
    rw [List.takeWhile_cons]
    cases i with
    | zero =>
      split
      · next reached => simpa using reached
      · next behind => simpa using behind
    | succ i =>
      have inside : i < marks.length := Nat.lt_of_succ_lt_succ inside
      rw [List.getElem_cons_succ]
      split
      · rw [List.length_cons, Nat.add_lt_add_iff_right]
        exact ih rest inside
      · next behind =>
        refine iff_of_false (Nat.not_lt_zero _) fun reached => behind (decide_eq_true ?_)
        exact Position.le_trans (Position.not_lt.mp fun back =>
          Position.lt_irrefl _ (Position.lt_trans back (first _ (List.getElem_mem inside)))) reached

theorem place_succ {i : Nat} (inside : i < (marks lines).length) :
    place lines (i + 1) = (marks lines)[i] := by
  rw [place, List.getElem?_eq_getElem inside, Option.getD_some]

/-- The place behind a number of significant characters is the first one with so many of them in
front of it. -/
theorem place_le_iff {count : Nat} (enough : count ≤ total lines) :
    place lines count ≤ p ↔ count ≤ anchor lines p := by
  cases count with
  | zero =>
    refine iff_of_true ?_ (Nat.zero_le _)
    rw [place, Position.origin, Position.le_def]
    simp only
    omega
  | succ i =>
    have inside : i < (marks lines).length := length_marks lines ▸ enough
    rw [place_succ inside, anchor, Nat.succ_le_iff]
    exact (lt_length_takeWhile_iff (pairwise_marksFrom ..) p inside).symm

theorem anchor_le_total (lines : List Line) (p : Position) : anchor lines p ≤ total lines :=
  length_marks lines ▸ (List.takeWhile_sublist _).length_le

theorem place_anchor_le (lines : List Line) (p : Position) : place lines (anchor lines p) ≤ p :=
  (place_le_iff (anchor_le_total lines p)).mpr (Nat.le_refl _)

theorem anchor_mono (lines : List Line) (h : p ≤ q) : anchor lines p ≤ anchor lines q :=
  (place_le_iff (anchor_le_total lines p)).mp (Position.le_trans (place_anchor_le lines p) h)

theorem anchor_documentEnd (lines : List Line) :
    anchor lines ⟨lines.length - 1, (lines.getD (lines.length - 1) []).length⟩ = total lines := by
  have all : (marks lines).takeWhile
      (· ≤ ⟨lines.length - 1, (lines.getD (lines.length - 1) []).length⟩) = marks lines :=
    List.takeWhile_eq_self_iff.mpr fun _ hm => decide_eq_true (le_documentEnd_of_mem_marks hm)
  rw [anchor, all, length_marks]

theorem anchor_place_eq_min (lines : List Line) (count : Nat) :
    anchor lines (place lines count) = min count (total lines) := by
  by_cases enough : count ≤ total lines
  · rw [anchor_place enough, Nat.min_eq_left enough]
  · obtain ⟨i, rfl⟩ := Nat.exists_eq_succ_of_ne_zero (Nat.ne_zero_of_lt (Nat.lt_of_not_le enough))
    have none : (marks lines)[i]? = none := List.getElem?_eq_none (by rw [length_marks]; omega)
    rw [place, none, Option.getD_none, anchor_documentEnd]
    omega

theorem not_isSignificant_of_between (back : place lines (anchor lines p) ≤ q) (before : q < p) :
    ¬IsSignificant .outside lines q := by
  intro significant
  have mark : ⟨q.line, q.column + 1⟩ ∈ marks lines := mem_marks_iff.mpr ⟨q, significant, rfl⟩
  obtain ⟨i, inside, found⟩ := List.getElem_of_mem mark
  have enough : i + 1 ≤ total lines := length_marks lines ▸ inside
  have counted : i + 1 ≤ anchor lines p := by
    rw [← place_le_iff enough, place_succ inside, found]
    rw [Position.lt_def] at before
    rw [Position.le_def]
    simp only
    omega
  have early : place lines (i + 1) ≤ place lines (anchor lines p) := by
    rw [place_le_iff enough, anchor_place (anchor_le_total lines p)]
    exact counted
  have reached := Position.le_trans early back
  rw [place_succ inside, found, Position.le_def] at reached
  simp only at reached
  omega

theorem place_lt_place {few many : Nat} (less : few < many) (enough : many ≤ total lines) :
    place lines few < place lines many := by
  by_contra late
  have back := (place_le_iff enough).mp (Position.not_lt.mp late)
  rw [anchor_place (Nat.le_of_lt (Nat.lt_of_lt_of_le less enough))] at back
  exact absurd less (Nat.not_lt.mpr back)

/-- The place behind a number of significant characters has that anchor, and the anchor of a place
leads back to it or in front of it, with nothing significant in between. -/
theorem anchors_and_places_invert (lines : List Line) :
    (∀ count, anchor lines (place lines count) = min count (total lines)) ∧
    (∀ p, place lines (anchor lines p) ≤ p ∧
      ∀ q, place lines (anchor lines p) ≤ q → q < p → ¬IsSignificant .outside lines q) ∧
    (∀ p q, p ≤ q → anchor lines p ≤ anchor lines q) ∧
    ∀ few many, few < many → many ≤ total lines → place lines few < place lines many := by
  refine ⟨anchor_place_eq_min lines, fun p => ⟨place_anchor_le lines p, ?_⟩, ?_, ?_⟩
  · intro q back before
    exact not_isSignificant_of_between back before
  · intro p q before
    exact anchor_mono lines before
  · intro few many less enough
    exact place_lt_place less enough

def openLiteral : List Line := [[' ', '"', ' '], [], [' ', '\\', '"', 'a'], ['"', ' ', '1', ' ']]

theorem anchors_and_places_invert_openLiteral :
    total openLiteral = 8 ∧ place openLiteral 2 < place openLiteral 3 ∧
      anchor openLiteral ⟨2, 0⟩ ≤ anchor openLiteral ⟨3, 4⟩ ∧
      place openLiteral (anchor openLiteral ⟨2, 0⟩) = ⟨0, 3⟩ ∧
      ¬IsSignificant .outside openLiteral ⟨1, 0⟩ ∧
      anchor openLiteral (place openLiteral 20) = 8 := by
  obtain ⟨counted, led, rises, climbs⟩ := anchors_and_places_invert openLiteral
  have count : total openLiteral = 8 := by decide
  have back : place openLiteral (anchor openLiteral ⟨2, 0⟩) = ⟨0, 3⟩ := by decide
  refine ⟨count, climbs 2 3 (by decide) (count ▸ by decide), rises _ _ (by decide), back, ?_, ?_⟩
  · exact (led ⟨2, 0⟩).2 ⟨1, 0⟩ (back ▸ by decide) (by decide)
  · rw [counted, count]
    rfl

end Significant

end FeatureText
