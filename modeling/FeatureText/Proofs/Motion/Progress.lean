import FeatureText.Proofs.Motion.Shown
import FeatureText.Proofs.Text.Flat
import Mathlib.Logic.Function.Iterate

/-! Motions to the side get on. One to the right leads further down the text and one to the left
further up, as long as there is text left. So whoever keeps a key down comes to the end or to the
start, with at most one step for each character on the way. -/
namespace FeatureText

namespace Motion

variable {s : Segmentation} {b : Buffer} {o : Outline} {p : Position} {lines : List Line}
variable {move : Position → Position}

theorem wordReach_pos {text : Line} (some : text ≠ []) : 0 < wordReach text := by
  cases text with
  | nil => exact absurd rfl some
  | cons c rest =>
    by_cases word : isWordChar c
    · simp [wordReach, word]
    · simp only [wordReach, word, List.takeWhile_cons, Bool.not_false, if_true, List.length_cons]
      omega

theorem le_documentEnd (h : b.Has p) : p ≤ documentEnd b.lines := by
  have line : p.line ≤ lastLine b.lines := Nat.le_sub_one_of_lt h.1
  have column : p.column ≤ lengthAt b.lines p.line := h.2
  rcases Nat.lt_or_eq_of_le line with above | last
  · exact .inl above
  · rw [last] at column
    exact .inr ⟨last, column⟩

theorem eq_documentEnd (h : b.Has p) (last : lastLine b.lines ≤ p.line)
    (full : lengthAt b.lines p.line ≤ p.column) : p = documentEnd b.lines := by
  rcases Position.lt_or_eq_of_le (le_documentEnd h) with before | same
  · simp only [Position.lt_def, documentEnd] at before
    have line : p.line = lastLine b.lines := by omega
    rw [line] at full
    omega
  · exact same

theorem lt_rightPlain (h : b.Has p) (inner : p ≠ documentEnd b.lines) :
    p < rightPlain s b.lines o p := by
  unfold rightPlain
  split
  · next short => exact .inr ⟨rfl, s.lt_next short⟩
  · next full =>
    split
    · next last => exact absurd (eq_documentEnd h last (Nat.le_of_not_lt full)) inner
    · split
      · next n found =>
        have hides := Outline.hides_of_hidingNode? found
        exact .inl (by dsimp only; omega)
      · exact .inl (Nat.lt_succ_self _)

theorem leftPlain_lt (inner : p ≠ documentStart) : leftPlain s lines o p < p := by
  unfold leftPlain
  split
  · next further => exact .inr ⟨rfl, s.previous_lt _ further⟩
  · next front =>
    split
    · next first =>
      obtain ⟨line, column⟩ := p
      simp only [documentStart, Position.origin, ne_eq, Position.mk.injEq] at front first inner
      omega
    · split
      · next n found =>
        have hides := Outline.hides_of_hidingNode? found
        exact .inl (by omega)
      · exact .inl (by dsimp only; omega)

section Nests

variable (nests : o.Nests)

include nests

theorem lt_pastEnd {n : Node} (found : o.collapsedFrom? p.line = some n) : p < pastEnd n := by
  have opens := Outline.opens_of_collapsedFrom? found
  have tall := nests.tall n (List.mem_of_mem_filter (List.mem_of_find?_eq_some found))
  exact .inl (by simp only [pastEnd]; omega)

theorem start_lt {n : Node} (found : o.collapsedTo? p.line = some n) : n.start < p := by
  have closes := Outline.closes_of_collapsedTo? found
  have tall := nests.tall n (List.mem_of_mem_filter (List.mem_of_find?_eq_some found))
  exact .inl (by omega)

theorem lt_right (h : b.Has p) (inner : p ≠ documentEnd b.lines) : p < right s b.lines o p := by
  unfold right
  split
  · next n found =>
    split
    · exact lt_pastEnd nests found
    · exact lt_rightPlain h inner
  · exact lt_rightPlain h inner

theorem lt_wordRight (h : b.Has p) (inner : p ≠ documentEnd b.lines) :
    p < wordRight s b.lines o p := by
  unfold wordRight
  split
  · exact lt_right nests h inner
  · next short =>
    have some : (lineAt b.lines p.line).drop p.column ≠ [] := by
      rw [Ne, List.drop_eq_nil_iff]
      exact short
    have reach := wordReach_pos some
    dsimp only
    split
    · next n found =>
      split
      · exact lt_pastEnd nests found
      · exact .inr ⟨rfl, Nat.lt_add_of_pos_right reach⟩
    · exact .inr ⟨rfl, Nat.lt_add_of_pos_right reach⟩

theorem left_lt (inner : p ≠ documentStart) : left s lines o p < p := by
  unfold left
  split
  · next n found =>
    split
    · exact start_lt nests found
    · exact leftPlain_lt inner
  · exact leftPlain_lt inner

theorem wordLeft_lt (inner : p ≠ documentStart) : wordLeft s lines o p < p := by
  unfold wordLeft
  split
  · exact left_lt nests inner
  · next further =>
    have column : ((lineAt lines p.line).take p.column).length -
        wordReach ((lineAt lines p.line).take p.column).reverse < p.column := by
      have bound := List.length_take_le p.column (lineAt lines p.line)
      by_cases empty : (lineAt lines p.line).take p.column = []
      · simp only [empty, List.length_nil]
        omega
      · have reach := wordReach_pos (mt List.reverse_eq_nil_iff.mp empty)
        have some := List.length_pos_iff.mpr empty
        omega
    dsimp only
    split
    · next n found =>
      split
      · exact start_lt nests found
      · exact .inr ⟨rfl, column⟩
    · exact .inr ⟨rfl, column⟩

theorem right_documentEnd (fits : o.Fits b) :
    right s b.lines o (documentEnd b.lines) = documentEnd b.lines := by
  unfold right
  split
  · next n found =>
    have beyond := le_documentEnd (fits.of_find? found).2
    exact absurd (lt_pastEnd nests found) (Position.not_lt.mpr beyond)
  · simp [rightPlain, documentEnd]

theorem wordRight_documentEnd (fits : o.Fits b) :
    wordRight s b.lines o (documentEnd b.lines) = documentEnd b.lines := by
  unfold wordRight
  exact (if_pos (Nat.le_refl _)).trans (right_documentEnd nests fits)

theorem left_documentStart (lines : List Line) : left s lines o documentStart = documentStart := by
  unfold left
  split
  · next n found =>
    have before := start_lt nests found
    simp [Position.lt_def, documentStart, Position.origin] at before
  · rfl

theorem wordLeft_documentStart (lines : List Line) :
    wordLeft s lines o documentStart = documentStart := by
  unfold wordLeft
  exact (if_pos rfl).trans (left_documentStart nests lines)

end Nests

/-- A motion that gets nearer to its goal with every step comes to it. -/
theorem exists_iterate_eq {goal : Position} (distance : Position → Nat)
    (stays : ∀ p, b.Has p → b.Has (move p))
    (nears : ∀ p, b.Has p → p ≠ goal → distance (move p) < distance p) (h : b.Has p) :
    ∃ steps ≤ distance p, move^[steps] p = goal := by
  induction eq : distance p using Nat.strong_induction_on generalizing p with
  | h left ih =>
    by_cases there : p = goal
    · exact ⟨0, Nat.zero_le _, there⟩
    · have nearer := nears p h there
      obtain ⟨steps, bound, arrives⟩ := ih _ (eq ▸ nearer) (stays p h) rfl
      exact ⟨steps + 1, by omega, arrives⟩

theorem exists_iterate_eq_documentEnd (stays : ∀ p, b.Has p → b.Has (move p))
    (gains : ∀ p, b.Has p → p ≠ documentEnd b.lines → p < move p) (h : b.Has p) :
    ∃ steps ≤ b.offset (documentEnd b.lines) - b.offset p,
      move^[steps] p = documentEnd b.lines := by
  apply exists_iterate_eq (fun p => b.offset (documentEnd b.lines) - b.offset p) stays _ h
  intro p h inner
  have further := Buffer.offset_lt_offset h (stays p h) (gains p h inner)
  have bound := Buffer.offset_le_offset (stays p h) (has_documentEnd b) (le_documentEnd (stays p h))
  omega

theorem exists_iterate_eq_documentStart (stays : ∀ p, b.Has p → b.Has (move p))
    (gains : ∀ p, p ≠ documentStart → move p < p) (h : b.Has p) :
    ∃ steps ≤ b.offset p, move^[steps] p = documentStart :=
  exists_iterate_eq b.offset stays
    (fun p h inner => Buffer.offset_lt_offset (stays p h) h (gains p inner)) h

/-- A motion to the right leads further down from every place but the end of the document, and one
to the left further up but from its start. Repeated, each of them comes there. -/
theorem sideways_motions_get_on (s : Segmentation) (b : Buffer) {before o : Outline}
    (folded : (before.rebuild b.lines).1.Refolds o) :
    (∀ move ∈ [right s b.lines o, wordRight s b.lines o],
      move (documentEnd b.lines) = documentEnd b.lines ∧
      ∀ p, b.Has p → (p ≠ documentEnd b.lines → p < move p) ∧
        ∃ steps ≤ b.offset (documentEnd b.lines) - b.offset p,
          move^[steps] p = documentEnd b.lines) ∧
    ∀ move ∈ [left s b.lines o, wordLeft s b.lines o],
      move documentStart = documentStart ∧
      ∀ p, b.Has p → (p ≠ documentStart → move p < p) ∧
        ∃ steps ≤ b.offset p, move^[steps] p = documentStart := by
  have nests : o.Nests := (before.nests_rebuild b.lines).of_refolds folded
  have fits : o.Fits b := fun n hn => before.fits_rebuild b n (folded.nodes ▸ hn)
  simp only [List.forall_mem_cons]
  refine ⟨⟨⟨right_documentEnd nests fits, fun p h => ⟨lt_right nests h, ?right⟩⟩,
      ⟨wordRight_documentEnd nests fits, fun p h => ⟨lt_wordRight nests h, ?wordRight⟩⟩,
      List.forall_mem_nil _⟩,
    ⟨left_documentStart nests b.lines, fun p h => ⟨left_lt nests, ?left⟩⟩,
    ⟨wordLeft_documentStart nests b.lines, fun p h => ⟨wordLeft_lt nests, ?wordLeft⟩⟩,
    List.forall_mem_nil _⟩
  case right =>
    exact exists_iterate_eq_documentEnd (fun _ => within_right 0 fits) (fun _ => lt_right nests) h
  case wordRight =>
    exact exists_iterate_eq_documentEnd (fun _ => within_wordRight 0 fits)
      (fun _ => lt_wordRight nests) h
  case left =>
    exact exists_iterate_eq_documentStart (fun _ => within_left 0 fits) (fun _ => left_lt nests) h
  case wordLeft =>
    exact exists_iterate_eq_documentStart (fun _ => within_wordLeft 0 fits)
      (fun _ => wordLeft_lt nests) h

theorem sideways_motions_get_on_doubleList :
    let found := (Outline.empty.rebuild doubleList.lines).1
    let o := { found with collapsed := [0, 1] }
    found.Refolds o ∧ doubleList.Has ⟨0, 1⟩ ∧ right clusters doubleList.lines o ⟨0, 1⟩ = ⟨4, 1⟩ ∧
      (⟨0, 1⟩ : Position) < right clusters doubleList.lines o ⟨0, 1⟩ ∧
      (∃ steps ≤ 7, (right clusters doubleList.lines o)^[steps] ⟨0, 1⟩ = ⟨4, 1⟩) ∧
      ∃ steps ≤ 1, (wordLeft clusters doubleList.lines o)^[steps] ⟨0, 1⟩ = ⟨0, 0⟩ := by
  intro found o
  have folded : found.Refolds o := ⟨[0, 1], rfl⟩
  have there : doubleList.Has ⟨0, 1⟩ := by decide
  obtain ⟨rights, lefts⟩ := sideways_motions_get_on clusters doubleList folded
  have onward := (rights _ List.mem_cons_self).2 _ there
  have back := (lefts _ (List.mem_cons_of_mem _ List.mem_cons_self)).2 _ there
  exact ⟨folded, there, by decide, onward.1 (by decide), onward.2, back.2⟩

end Motion

end FeatureText
