import FeatureText.Text.Line
import Mathlib.Data.List.Basic

/-! Cutting a text into lines and joining lines to a text. They undo each other while no line has a
line feed of its own. -/
namespace FeatureText

theorem joinLines_cons_cons (line next : Line) (lines : List Line) :
    joinLines (line :: next :: lines) = line ++ '\n' :: joinLines (next :: lines) := by
  simp [joinLines]

theorem pieces_newline_cons (text : Text) : pieces ('\n' :: text) = [] :: pieces text := rfl

theorem pieces_cons {c : Char} (h : c ≠ '\n') {text : Text} {piece : Text} {more : List Text}
    (hp : pieces text = piece :: more) : pieces (c :: text) = (c :: piece) :: more := by
  simp only [pieces, if_neg h, hp]

theorem exists_pieces_eq_cons (text : Text) : ∃ piece more, pieces text = piece :: more :=
  List.exists_cons_of_ne_nil (pieces_ne_nil text)

theorem joinLines_pieces (text : Text) : joinLines (pieces text) = text := by
  induction text with
  | nil => rfl
  | cons c text ih =>
    obtain ⟨piece, more, hp⟩ := exists_pieces_eq_cons text
    by_cases hc : c = '\n'
    · rw [hc, pieces_newline_cons, hp, joinLines_cons_cons, ← hp, ih]
      rfl
    · rw [hp] at ih
      rw [pieces_cons hc hp, ← ih]
      cases more with
      | nil => simp
      | cons => rw [joinLines_cons_cons, joinLines_cons_cons]; rfl

theorem newline_not_mem_of_mem_pieces {text piece : Text} (h : piece ∈ pieces text) :
    '\n' ∉ piece := by
  induction text generalizing piece with
  | nil => simp_all [pieces]
  | cons c text ih =>
    obtain ⟨first, more, hp⟩ := exists_pieces_eq_cons text
    by_cases hc : c = '\n'
    · rw [hc, pieces_newline_cons, List.mem_cons] at h
      rcases h with rfl | h
      · simp
      · exact ih h
    · rw [pieces_cons hc hp, List.mem_cons] at h
      rw [hp] at ih
      rcases h with rfl | h
      · rw [List.mem_cons, not_or]
        exact ⟨Ne.symm hc, ih List.mem_cons_self⟩
      · exact ih (List.mem_cons_of_mem _ h)

theorem pieces_of_newline_not_mem {text : Text} (h : '\n' ∉ text) : pieces text = [text] := by
  induction text with
  | nil => rfl
  | cons c text ih =>
    rw [List.mem_cons, not_or] at h
    exact pieces_cons (Ne.symm h.1) (ih h.2)

theorem pieces_append {front : Text} (h : '\n' ∉ front) {text piece : Text} {more : List Text}
    (hp : pieces text = piece :: more) : pieces (front ++ text) = (front ++ piece) :: more := by
  induction front with
  | nil => exact hp
  | cons c front ih =>
    rw [List.mem_cons, not_or] at h
    exact pieces_cons (Ne.symm h.1) (ih h.2)

theorem pieces_append_newline {front : Text} (h : '\n' ∉ front) (text : Text) :
    pieces (front ++ '\n' :: text) = front :: pieces text := by
  rw [pieces_append h (pieces_newline_cons text), List.append_nil]

theorem pieces_joinLines {lines : List Line} (some : lines ≠ [])
    (h : ∀ line ∈ lines, '\n' ∉ line) : pieces (joinLines lines) = lines := by
  induction lines with
  | nil => exact absurd rfl some
  | cons line lines ih =>
    rw [List.forall_mem_cons] at h
    cases lines with
    | nil => rw [joinLines_singleton, pieces_of_newline_not_mem h.1]
    | cons next lines =>
      rw [joinLines_cons_cons, pieces_append_newline h.1, ih (by simp) h.2]

theorem dropReturn_subset (text : Text) : dropReturn text ⊆ text := by
  fun_induction dropReturn text with
  | case1 | case2 => simp
  | case3 c rest _ ih => exact List.cons_subset_cons c ih

theorem dropReturn_eq_self {text : Text} (h : '\r' ∉ text) : dropReturn text = text := by
  fun_induction dropReturn text with
  | case1 => rfl
  | case2 => simp at h
  | case3 c rest _ ih => rw [ih fun hr => h (List.mem_cons_of_mem c hr)]

theorem newline_not_mem_of_mem_splitLines {text : Text} {line : Line}
    (h : line ∈ splitLines text) : '\n' ∉ line := by
  obtain ⟨piece, hp, rfl⟩ := List.mem_map.mp h
  exact fun hn => newline_not_mem_of_mem_pieces hp (dropReturn_subset piece hn)

theorem mem_of_mem_pieces {text piece : Text} (h : piece ∈ pieces text) : piece ⊆ text := by
  induction text generalizing piece with
  | nil => simp_all [pieces]
  | cons c text ih =>
    obtain ⟨first, more, hp⟩ := exists_pieces_eq_cons text
    by_cases hc : c = '\n'
    · rw [hc, pieces_newline_cons, List.mem_cons] at h
      rcases h with rfl | h
      · simp
      · exact List.subset_cons_of_subset _ (ih h)
    · rw [pieces_cons hc hp, List.mem_cons] at h
      rw [hp] at ih
      rcases h with rfl | h
      · exact List.cons_subset_cons c (ih List.mem_cons_self)
      · exact List.subset_cons_of_subset _ (ih (List.mem_cons_of_mem _ h))

theorem splitLines_eq_pieces {text : Text} (h : '\r' ∉ text) : splitLines text = pieces text := by
  rw [splitLines]
  conv_rhs => rw [← List.map_id (pieces text)]
  exact List.map_congr_left fun piece hp => dropReturn_eq_self fun hr => h (mem_of_mem_pieces hp hr)

theorem joinLines_splitLines {text : Text} (plain : '\r' ∉ text) :
    joinLines (splitLines text) = text := by
  rw [splitLines_eq_pieces plain, joinLines_pieces]

theorem length_pieces (text : Text) : (pieces text).length = text.count '\n' + 1 := by
  induction text with
  | nil => rfl
  | cons c text ih =>
    obtain ⟨piece, more, cut⟩ := exists_pieces_eq_cons text
    by_cases newline : c = '\n'
    · rw [newline, pieces_newline_cons, List.length_cons, ih, List.count_cons_self]
    · rw [cut] at ih
      rw [pieces_cons newline cut, List.count_cons_of_ne newline, ← ih]
      rfl

theorem length_splitLines (text : Text) : (splitLines text).length = text.count '\n' + 1 := by
  rw [splitLines, List.length_map, length_pieces]

end FeatureText
