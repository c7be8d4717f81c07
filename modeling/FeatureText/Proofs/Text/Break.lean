import FeatureText.Proofs.Text.Line

/-! Line breaks. Cutting a text into lines and joining them again makes every line break a single
line feed. A carriage return that ends the text is taken for a part of a line break as well, though
no line feed follows it, and is lost. -/
namespace FeatureText

def unifyBreaks : Text → Text
  | [] => []
  | '\r' :: '\n' :: rest => '\n' :: unifyBreaks rest
  | c :: rest => c :: unifyBreaks rest

theorem dropReturn_cons {c : Char} {text : Text} (more : c ≠ '\r' ∨ text ≠ []) :
    dropReturn (c :: text) = c :: dropReturn text := by
  apply dropReturn.eq_3
  rintro rfl rfl
  simp at more

theorem dropReturn_append_lost (text : Text) :
    dropReturn text ++ (if text.getLast? = some '\r' then ['\r'] else []) = text := by
  fun_induction dropReturn text with
  | case1 => rfl
  | case2 => rfl
  | case3 c rest h ih =>
    cases rest with
    | nil =>
      have other : c ≠ '\r' := fun same => h same rfl
      simp [dropReturn, other]
    | cons d rest => rw [List.getLast?_cons_cons, List.cons_append, ih]

theorem joinLines_char_cons (c : Char) (line : Line) (lines : List Line) :
    joinLines ((c :: line) :: lines) = c :: joinLines (line :: lines) := by
  cases lines with
  | nil => rw [joinLines_singleton, joinLines_singleton]
  | cons => rw [joinLines_cons_cons, joinLines_cons_cons, List.cons_append]

theorem getLast?_unifyBreaks (text : Text) : (unifyBreaks text).getLast? = text.getLast? := by
  fun_induction unifyBreaks text with
  | case1 => rfl
  | case2 rest ih => cases rest <;> simp_all [List.getLast?_cons]
  | case3 c rest _ ih => rw [List.getLast?_cons, List.getLast?_cons, ih]

theorem joinLines_splitLines_newline (text : Text) :
    joinLines (splitLines ('\n' :: text)) = '\n' :: joinLines (splitLines text) := by
  obtain ⟨first, more, cut⟩ := List.exists_cons_of_ne_nil (splitLines_ne_nil text)
  have lines : splitLines ('\n' :: text) = [] :: splitLines text := rfl
  rw [lines, cut, joinLines_cons_cons, List.nil_append]

theorem joinLines_splitLines_cons {c : Char} {text : Text}
    (kept : c = '\r' → ∃ d rest, text = d :: rest ∧ d ≠ '\n') :
    joinLines (splitLines (c :: text)) = c :: joinLines (splitLines text) := by
  by_cases newline : c = '\n'
  · rw [newline, joinLines_splitLines_newline]
  · obtain ⟨piece, more, cut⟩ := exists_pieces_eq_cons text
    have whole : dropReturn (c :: piece) = c :: dropReturn piece := by
      apply dropReturn_cons
      by_cases last : c = '\r'
      · obtain ⟨d, rest, rfl, other⟩ := kept last
        obtain ⟨next, others, behind⟩ := exists_pieces_eq_cons rest
        rw [pieces_cons other behind] at cut
        rw [← (List.cons.inj cut).1]
        exact .inr (List.cons_ne_nil _ _)
      · exact .inl last
    rw [splitLines, pieces_cons newline cut, splitLines, cut, List.map_cons, List.map_cons, whole,
      joinLines_char_cons]

/-- Joined lines are the text with its line breaks unified, but for a last carriage return. -/
theorem joinLines_splitLines_eq (text : Text) :
    joinLines (splitLines text) = dropReturn (unifyBreaks text) := by
  fun_induction unifyBreaks text with
  | case1 => rfl
  | case2 rest ih =>
    have lines : splitLines ('\r' :: '\n' :: rest) = splitLines ('\n' :: rest) := rfl
    rw [lines, joinLines_splitLines_newline, ih, dropReturn_cons (.inl (by decide))]
  | case3 c rest single ih =>
    cases rest with
    | nil =>
      by_cases last : c = '\r'
      · subst last
        rfl
      · rw [joinLines_splitLines_cons (fun same => absurd same last), ih,
          dropReturn_cons (.inl last)]
    | cons d rest =>
      have other : c = '\r' → d ≠ '\n' := by
        rintro rfl rfl
        exact single rest rfl rfl
      have some : unifyBreaks (d :: rest) ≠ [] := by
        intro none
        have last := getLast?_unifyBreaks (d :: rest)
        rw [none] at last
        exact List.cons_ne_nil d rest (List.getLast?_eq_none_iff.mp last.symm)
      rw [joinLines_splitLines_cons (fun same => ⟨d, rest, rfl, other same⟩), ih,
        dropReturn_cons (.inr some)]

/-- Cutting a text into lines loses the style of line breaks and a carriage return at the very end
of the text, and nothing else. There is one line more than there are line feeds. -/
theorem lines_lose_last_return (text : Text) :
    (splitLines text).length = text.count '\n' + 1 ∧
    joinLines (splitLines text) ++ (if text.getLast? = some '\r' then ['\r'] else []) =
      unifyBreaks text ∧
    (joinLines (splitLines text) = unifyBreaks text ↔ text.getLast? ≠ some '\r') := by
  have whole := dropReturn_append_lost (unifyBreaks text)
  rw [getLast?_unifyBreaks, ← joinLines_splitLines_eq] at whole
  refine ⟨length_splitLines text, whole, ?_⟩
  by_cases last : text.getLast? = some '\r'
  · rw [← whole, if_pos last]
    simp [last]
  · rw [← whole, if_neg last]
    simp [last]

/-- The carriage return stands in front of no line feed, and is not in the line. -/
theorem last_return_is_lost :
    splitLines ['a', '\r'] = [['a']] ∧ unifyBreaks ['a', '\r'] = ['a', '\r'] ∧
      joinLines (splitLines ['a', '\r']) ≠ unifyBreaks ['a', '\r'] := by
  decide

end FeatureText
