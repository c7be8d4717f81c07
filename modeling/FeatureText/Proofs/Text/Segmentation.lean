import FeatureText.Text.Segmentation

/-! Where the parts of a line meet. However lines are cut, the boundaries rise strictly from the
front of the line to its end, so a step to the next one and a step to the previous one take each
other back. -/
namespace FeatureText

/-- In a list that is in order all that is found further on comes behind what is found first. -/
theorem eq_or_rel_of_find? {α : Type} {r : α → α → Prop} {xs : List α} {choose : α → Bool} {x y : α}
    (ordered : xs.Pairwise r) (found : xs.find? choose = some x) (hy : y ∈ xs) (chosen : choose y) :
    y = x ∨ r x y := by
  obtain ⟨-, before, after, rfl, others⟩ := List.find?_eq_some_iff_append.mp found
  rcases List.mem_append.mp hy with early | late
  · simpa [chosen] using others y early
  · rw [List.pairwise_append, List.pairwise_cons] at ordered
    exact (List.mem_cons.mp late).imp_right (ordered.2.1.1 y)

namespace Segmentation

variable {s : Segmentation} {line : Line} {parts : List Line} {column c : Nat}

/-- Some of the first parts of the line end at the column. -/
def IsBoundary (s : Segmentation) (line : Line) (column : Nat) : Prop :=
  ∃ front, front <+: s.parts line ∧ front.flatten.length = column

theorem mem_bounds_iff :
    c ∈ bounds column parts ↔ ∃ front, front <+: parts ∧ column + front.flatten.length = c := by
  induction parts generalizing column with
  | nil => simp [bounds, eq_comm]
  | cons part rest ih =>
    simp only [bounds, List.mem_cons, ih, List.prefix_cons_iff]
    constructor
    · rintro (rfl | ⟨front, first, rfl⟩)
      · exact ⟨[], by simp⟩
      · exact ⟨part :: front, .inr ⟨front, rfl, first⟩, by simp [Nat.add_assoc]⟩
    · rintro ⟨_, rfl | ⟨front, rfl, first⟩, rfl⟩
      · simp
      · exact .inr ⟨front, first, by simp [Nat.add_assoc]⟩

theorem mem_boundaries_iff : c ∈ s.boundaries line ↔ s.IsBoundary line c := by
  simp [boundaries, mem_bounds_iff, IsBoundary]

instance (s : Segmentation) (line : Line) (column : Nat) : Decidable (s.IsBoundary line column) :=
  decidable_of_iff _ mem_boundaries_iff

theorem pairwise_bounds (some : ∀ part ∈ parts, part ≠ []) :
    (bounds column parts).Pairwise (· < ·) := by
  induction parts generalizing column with
  | nil => simp [bounds]
  | cons part rest ih =>
    rw [List.forall_mem_cons] at some
    refine List.pairwise_cons.mpr ⟨fun c hc => ?_, ih some.2⟩
    obtain ⟨front, -, rfl⟩ := mem_bounds_iff.mp hc
    have := List.length_pos_iff.mpr some.1
    omega

theorem pairwise_boundaries (s : Segmentation) (line : Line) :
    (s.boundaries line).Pairwise (· < ·) :=
  pairwise_bounds fun _ => s.ne_nil_of_mem_parts

theorem isBoundary_zero (s : Segmentation) (line : Line) : s.IsBoundary line 0 := ⟨[], by simp⟩

theorem isBoundary_length (s : Segmentation) (line : Line) : s.IsBoundary line line.length :=
  ⟨s.parts line, List.prefix_refl _, by rw [s.flatten_parts]⟩

theorem IsBoundary.le_length (h : s.IsBoundary line c) : c ≤ line.length := by
  obtain ⟨front, ⟨back, eq⟩, rfl⟩ := h
  rw [← s.flatten_parts line, ← eq]
  simp

theorem isBoundary_previous (s : Segmentation) (line : Line) (column : Nat) :
    s.IsBoundary line (s.previous line column) := by
  rw [previous]
  cases found : (s.boundaries line).reverse.find? (· < column) with
  | none => exact s.isBoundary_zero line
  | some c =>
    apply mem_boundaries_iff.mp
    simpa using List.mem_of_find?_eq_some found

theorem isBoundary_next (s : Segmentation) (line : Line) (column : Nat) :
    s.IsBoundary line (s.next line column) := by
  rw [next]
  cases found : (s.boundaries line).find? (column < ·) with
  | none => exact s.isBoundary_length line
  | some c => exact mem_boundaries_iff.mp (List.mem_of_find?_eq_some found)

theorem next_le (s : Segmentation) (line : Line) (column : Nat) :
    s.next line column ≤ line.length :=
  (s.isBoundary_next line column).le_length

theorem previous_lt (s : Segmentation) (line : Line) (inner : 0 < column) :
    s.previous line column < column := by
  rw [previous]
  cases found : (s.boundaries line).reverse.find? (· < column) with
  | none => exact inner
  | some c =>
    have before := List.find?_some found
    exact of_decide_eq_true before

theorem previous_le (s : Segmentation) (line : Line) (column : Nat) :
    s.previous line column ≤ column := by
  rcases Nat.eq_zero_or_pos column with rfl | inner
  · have none : (s.boundaries line).reverse.find? (· < 0) = none := by simp
    rw [previous, none]
    exact Nat.le_refl _
  · exact Nat.le_of_lt (s.previous_lt line inner)

theorem lt_next (s : Segmentation) (inner : column < line.length) :
    column < s.next line column := by
  rw [next]
  cases found : (s.boundaries line).find? (column < ·) with
  | none => exact inner
  | some c =>
    have behind := List.find?_some found
    exact of_decide_eq_true behind

/-- No boundary lies between a column and the previous one. -/
theorem IsBoundary.le_previous (h : s.IsBoundary line c) (before : c < column) :
    c ≤ s.previous line column := by
  have there : c ∈ (s.boundaries line).reverse := List.mem_reverse.mpr (mem_boundaries_iff.mpr h)
  rw [previous]
  cases found : (s.boundaries line).reverse.find? (· < column) with
  | none => exact absurd (decide_eq_true before) (List.find?_eq_none.mp found c there)
  | some d =>
    have ordered := List.pairwise_reverse.mpr (s.pairwise_boundaries line)
    have := eq_or_rel_of_find? ordered found there (decide_eq_true before)
    simp only [Option.getD_some]
    omega

theorem IsBoundary.next_le (h : s.IsBoundary line c) (behind : column < c) :
    s.next line column ≤ c := by
  have there : c ∈ s.boundaries line := mem_boundaries_iff.mpr h
  rw [next]
  cases found : (s.boundaries line).find? (column < ·) with
  | none => exact absurd (decide_eq_true behind) (List.find?_eq_none.mp found c there)
  | some d =>
    have := eq_or_rel_of_find? (s.pairwise_boundaries line) found there (decide_eq_true behind)
    simp only [Option.getD_some]
    omega

theorem previous_next (h : s.IsBoundary line column) (inner : column < line.length) :
    s.previous line (s.next line column) = column := by
  have behind := s.lt_next inner
  have before := s.previous_lt line (Nat.zero_lt_of_lt behind)
  apply Nat.le_antisymm
  · apply Nat.le_of_not_lt
    intro further
    exact Nat.not_le_of_lt before ((s.isBoundary_previous _ _).next_le further)
  · exact h.le_previous behind

theorem next_previous (h : s.IsBoundary line column) (inner : 0 < column) :
    s.next line (s.previous line column) = column := by
  have before := s.previous_lt line inner
  have behind := s.lt_next (Nat.lt_of_lt_of_le before h.le_length)
  apply Nat.le_antisymm
  · exact h.next_le before
  · apply Nat.le_of_not_lt
    intro nearer
    exact Nat.not_le_of_lt behind ((s.isBoundary_next _ _).le_previous nearer)

end Segmentation

end FeatureText
