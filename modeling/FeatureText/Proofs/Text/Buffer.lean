import FeatureText.Proofs.Text.Fragment
import FeatureText.Text.Buffer
import FeatureText.View.Inline

/-! Places in a buffer, and lines without line feeds of their own. Every edit of a buffer keeps
lines so, and so does writing a color over a part of a line. -/
namespace FeatureText

def Unbroken (lines : List Line) : Prop := ∀ line ∈ lines, '\n' ∉ line

theorem unbroken_splitLines (text : Text) : Unbroken (splitLines text) := fun _ h =>
  newline_not_mem_of_mem_splitLines h

/-- The lines of such a text are found again. -/
theorem Unbroken.pieces_joinLines {lines : List Line} (h : Unbroken lines) (some : lines ≠ []) :
    pieces (joinLines lines) = lines :=
  FeatureText.pieces_joinLines some h

theorem pieces_joinLines_splitLines (text : Text) :
    pieces (joinLines (splitLines text)) = splitLines text :=
  (unbroken_splitLines text).pieces_joinLines (splitLines_ne_nil text)

namespace Fragment

theorem unbroken_glue {left right : List Line} (hl : Unbroken left) (hr : Unbroken right) :
    Unbroken (glue left right) := by
  fun_induction glue left right with
  | case1 => exact hr
  | case2 => exact hl
  | case3 line first more =>
    intro other ho
    rcases List.mem_cons.mp ho with rfl | ho
    · rw [List.mem_append, not_or]
      exact ⟨hl line List.mem_cons_self, hr first List.mem_cons_self⟩
    · exact hr other (List.mem_cons_of_mem first ho)
  | case4 line next left right ih =>
    intro other ho
    rcases List.mem_cons.mp ho with rfl | ho
    · exact hl other List.mem_cons_self
    · exact ih (fun l h => hl l (List.mem_cons_of_mem line h)) hr other ho

theorem newline_not_mem_getD {lines : List Line} (h : Unbroken lines) (index : Nat) :
    '\n' ∉ lines.getD index [] := by
  rw [List.getD_eq_getElem?_getD]
  cases hi : lines[index]? with
  | none => simp
  | some line => exact h line (List.mem_of_getElem? hi)

theorem unbroken_before {lines : List Line} (h : Unbroken lines) (p : Position) :
    Unbroken (before p lines) := by
  intro line hl
  rcases List.mem_append.mp hl with hl | hl
  · exact h line (List.mem_of_mem_take hl)
  · rw [List.mem_singleton.mp hl]
    exact fun hn => newline_not_mem_getD h p.line (List.mem_of_mem_take hn)

theorem unbroken_after {lines : List Line} (h : Unbroken lines) (p : Position) :
    Unbroken (after p lines) := by
  intro line hl
  rcases List.mem_cons.mp hl with rfl | hl
  · exact fun hn => newline_not_mem_getD h p.line (List.mem_of_mem_drop hn)
  · exact h line (List.mem_of_mem_drop hl)

end Fragment

namespace Buffer

/-- The place is in the buffer. It may be at the end of its line. -/
def Has (b : Buffer) (p : Position) : Prop := p.line < b.lineCount ∧ p.column ≤ b.lineLength p.line

instance (b : Buffer) (p : Position) : Decidable (b.Has p) := inferInstanceAs (Decidable (_ ∧ _))

theorem unbroken_empty : Unbroken empty.lines := by
  intro line hl
  rw [List.mem_singleton.mp hl]
  simp

theorem unbroken_ofLines {lines : List Line} (h : Unbroken lines) :
    Unbroken (ofLines lines).lines := by
  cases lines with
  | nil => exact unbroken_empty
  | cons => exact h

variable {b : Buffer}

theorem has_clamp (b : Buffer) (p : Position) : b.Has (b.clamp p) :=
  ⟨b.line_clamp_lt p, b.column_clamp_le p⟩

theorem has_lineStart {line : Nat} (h : line < b.lineCount) : b.Has ⟨line, 0⟩ := ⟨h, Nat.zero_le _⟩

theorem has_lineEnd {line : Nat} (h : line < b.lineCount) : b.Has ⟨line, b.lineLength line⟩ :=
  ⟨h, Nat.le_refl _⟩

theorem has_origin (b : Buffer) : b.Has .origin := has_lineStart b.lineCount_pos

theorem has_stop (b : Buffer) : b.Has b.stop :=
  has_lineEnd (Nat.sub_one_lt_of_lt b.lineCount_pos)

theorem lineLength_eq_zero {line : Nat} (h : b.lineCount ≤ line) : b.lineLength line = 0 := by
  rw [lineLength, lineAt, List.getD_eq_getElem?_getD, List.getElem?_eq_none h]
  rfl

theorem ofLines_lines (b : Buffer) : ofLines b.lines = b := by
  obtain ⟨lines, some⟩ := b
  cases lines with
  | nil => exact absurd rfl some
  | cons => rfl

theorem unbroken_insert (h : Unbroken b.lines) (p : Position) (text : Text) :
    Unbroken (b.insert p text).1.lines :=
  Fragment.unbroken_glue
    (Fragment.unbroken_glue (Fragment.unbroken_before h _) (unbroken_splitLines text))
    (Fragment.unbroken_after h _)

theorem unbroken_delete (h : Unbroken b.lines) (p q : Position) : Unbroken (b.delete p q).lines :=
  Fragment.unbroken_glue (Fragment.unbroken_before h _) (Fragment.unbroken_after h _)

theorem unbroken_replaceInLine? (h : Unbroken b.lines) {text : Text} (ht : '\n' ∉ text)
    (index start stop : Nat) :
    Unbroken ((b.replaceInLine? index start stop text).getD b).lines := by
  unfold replaceInLine?
  split
  · intro line hl
    rw [Option.getD_some, List.mem_iff_getElem?] at hl
    obtain ⟨place, hl⟩ := hl
    rw [List.getElem?_modify] at hl
    obtain ⟨old, there, rfl⟩ := Option.map_eq_some_iff.mp hl
    have clean := h old (List.mem_of_getElem? there)
    split
    · simp only [List.mem_append, not_or]
      exact ⟨⟨fun hn => clean (List.mem_of_mem_take hn), ht⟩,
        fun hn => clean (List.mem_of_mem_drop hn)⟩
    · exact clean
  · exact h

def front (b : Buffer) (p : Position) : Text := joinLines (Fragment.before p b.lines)

def back (b : Buffer) (p : Position) : Text := joinLines (Fragment.after p b.lines)

theorem pieces_front (h : Unbroken b.lines) (p : Position) :
    pieces (b.front p) = Fragment.before p b.lines :=
  (Fragment.unbroken_before h p).pieces_joinLines (Fragment.before_ne_nil p b.lines)

theorem pieces_back (h : Unbroken b.lines) (p : Position) :
    pieces (b.back p) = Fragment.after p b.lines :=
  (Fragment.unbroken_after h p).pieces_joinLines (Fragment.after_ne_nil p b.lines)

theorem front_append_back (h : Unbroken b.lines) {p : Position} (inside : p.line < b.lineCount) :
    b.front p ++ b.back p = b.text := by
  rw [← joinLines_pieces (b.front p ++ b.back p), Fragment.pieces_append_eq_glue, pieces_front h,
    pieces_back h, Fragment.glue_before_after inside, text]

theorem advance_front (h : Unbroken b.lines) {p : Position} (inside : p.line < b.lineCount)
    (column : p.column ≤ b.lineLength p.line) : Position.origin.advance (b.front p) = p := by
  rw [← Fragment.stop_pieces, pieces_front h, Fragment.stop_before inside column]

theorem glue_before_splitLines (h : Unbroken b.lines) (p : Position) (text : Text) :
    Fragment.glue (Fragment.before p b.lines) (splitLines text) =
      pieces (b.front p ++ joinLines (splitLines text)) := by
  rw [Fragment.pieces_append_eq_glue, pieces_front h, pieces_joinLines_splitLines]

theorem text_insert (h : Unbroken b.lines) (p : Position) (text : Text) :
    (b.insert p text).1.text =
      b.front (b.clamp p) ++ joinLines (splitLines text) ++ b.back (b.clamp p) := by
  rw [← joinLines_pieces (b.front (b.clamp p) ++ joinLines (splitLines text) ++ b.back (b.clamp p)),
    Fragment.pieces_append_eq_glue, ← glue_before_splitLines h, pieces_back h]
  rfl

theorem stop_insert (h : Unbroken b.lines) (p : Position) (text : Text) :
    (b.insert p text).2 =
      Position.origin.advance (b.front (b.clamp p) ++ joinLines (splitLines text)) := by
  rw [← Fragment.stop_pieces, ← glue_before_splitLines h]
  rfl

/-- Behind the end of its line a place has the same text on both sides as at the end. -/
theorem front_clamp {p : Position} (inside : p.line < b.lineCount) :
    b.front (b.clamp p) = b.front p := by
  have line : min p.line (b.lineCount - 1) = p.line := by omega
  have column : (b.lineAt p.line).take (min p.column (b.lineLength p.line)) =
      (b.lineAt p.line).take p.column := by
    rw [← List.take_take, lineLength, List.take_length]
  rw [front, front, clamp, line, Fragment.before, Fragment.before]
  exact congrArg (fun last => joinLines (b.lines.take p.line ++ [last])) column

theorem back_clamp {p : Position} (inside : p.line < b.lineCount) :
    b.back (b.clamp p) = b.back p := by
  have line : min p.line (b.lineCount - 1) = p.line := by omega
  have column : (b.lineAt p.line).drop (min p.column (b.lineLength p.line)) =
      (b.lineAt p.line).drop p.column := by
    rw [lineLength]
    rcases Nat.le_total p.column (b.lineAt p.line).length with le | ge
    · rw [Nat.min_eq_left le]
    · rw [Nat.min_eq_right ge, List.drop_length, List.drop_eq_nil_of_le ge]
  rw [back, back, clamp, line, Fragment.after, Fragment.after]
  exact congrArg (fun first => joinLines (first :: b.lines.drop (p.line + 1))) column

theorem lt_clamp_iff {o p : Position} (inside : p.line < b.lineCount)
    (there : o.column < b.lineLength o.line) : o < b.clamp p ↔ o < p := by
  have line : min p.line (b.lineCount - 1) = p.line := by omega
  rw [clamp, line, Position.lt_def, Position.lt_def]
  refine or_congr_right (and_congr_right fun same => ?_)
  rw [← same, Nat.lt_min, and_iff_left there]

end Buffer

theorem byte_mem_of_newline_mem {text : Text} (h : '\n' ∈ text) :
    10 ∈ (String.ofList text).toByteArray.data.toList := by
  have bytes : (String.ofList text).toByteArray.data.toList =
      text.flatMap String.utf8EncodeChar := by
    simp [List.utf8Encode]
  rw [bytes]
  exact List.mem_flatMap.mpr ⟨'\n', h, by decide⟩

-- The bytes of a literal are evaluated much faster than its characters.
theorem byte_not_mem_namedColors : ∀ name ∈ namedColors, 10 ∉ name.toByteArray.data.toList := by
  decide +kernel

theorem newline_not_mem_of_isColor {value : Text} (h : Inline.isColor value) : '\n' ∉ value := by
  intro hn
  unfold Inline.isColor at h
  split at h
  · next digits =>
    simp only [Inline.isHexColor, Bool.and_eq_true, List.all_eq_true] at h
    have hn : '\n' ∈ digits := by simpa using hn
    exact absurd (h.2 _ hn) (by decide)
  · have named := List.contains_iff_mem.mp h
    have lower : '\n' ∈ value.map Char.toLower := List.mem_map.mpr ⟨'\n', hn, by decide⟩
    exact byte_not_mem_namedColors _ named (byte_mem_of_newline_mem lower)

end FeatureText
