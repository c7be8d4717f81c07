import FeatureText.Proofs.Text.Slice
import Mathlib.Algebra.GroupWithZero.Nat

/-! A buffer as one text. A place is a number of characters in front of it, and reading so many
characters leads to that place again, so that every edit of the lines is a cut of the text. -/
namespace FeatureText

theorem length_joinLines_concat (init : List Line) (last : Line) :
    (joinLines (init ++ [last])).length = (init.map (·.length + 1)).sum + last.length := by
  induction init with
  | nil => simp
  | cons line init ih =>
    have some : init ++ [last] ≠ [] := by simp
    obtain ⟨next, more, eq⟩ := List.exists_cons_of_ne_nil some
    rw [eq] at ih
    rw [List.cons_append, eq, joinLines_cons_cons, List.length_append, List.length_cons, ih,
      List.map_cons, List.sum_cons]
    omega

namespace Buffer

/-- How many characters of the text stand in front of a place. -/
def offset (b : Buffer) (p : Position) : Nat :=
  ((b.lines.take (b.clamp p).line).map (·.length + 1)).sum + (b.clamp p).column

variable {b : Buffer} {p q : Position} {front segment back : Text}

theorem clamp_clamp (b : Buffer) (p : Position) : b.clamp (b.clamp p) = b.clamp p :=
  clamp_eq_self (b.has_clamp p)

theorem offset_clamp (b : Buffer) (p : Position) : b.offset (b.clamp p) = b.offset p := by
  rw [offset, clamp_clamp, offset]

theorem length_front (inside : b.Has p) : (b.front p).length = b.offset p := by
  have column : ((b.lineAt p.line).take p.column).length = p.column :=
    List.length_take_of_le inside.2
  rw [Buffer.front, Fragment.before, length_joinLines_concat, offset, clamp_eq_self inside]
  exact congrArg _ column

theorem front_eq_take (h : Unbroken b.lines) (inside : b.Has p) :
    b.front p = b.text.take (b.offset p) := by
  rw [← front_append_back h inside.1, ← length_front inside, List.take_left]

theorem back_eq_drop (h : Unbroken b.lines) (inside : b.Has p) :
    b.back p = b.text.drop (b.offset p) := by
  rw [← front_append_back h inside.1, ← length_front inside, List.drop_left]

theorem pieces_text (h : Unbroken b.lines) : pieces b.text = b.lines :=
  h.pieces_joinLines b.lines_ne_nil

theorem eq_of_text_eq {other : Buffer} (h : Unbroken b.lines) (h' : Unbroken other.lines)
    (same : b.text = other.text) : b = other := by
  ext1
  rw [← pieces_text h, same, pieces_text h']

theorem has_advance (h : Unbroken b.lines) (whole : b.text = front ++ back) :
    b.Has (Position.origin.advance front) := by
  obtain ⟨init, last, left⟩ := (List.eq_nil_or_concat' (pieces front)).resolve_left
    (pieces_ne_nil front)
  obtain ⟨first, more, right⟩ := exists_pieces_eq_cons back
  have lines : b.lines = init ++ (last ++ first) :: more := by
    rw [← pieces_text h, whole, Fragment.pieces_append_eq_glue, left, right,
      Fragment.glue_concat_cons]
  rw [← Fragment.stop_pieces, left, Fragment.stop_concat, Has, lineCount, lineLength, lineAt, lines]
  simp

theorem front_advance (h : Unbroken b.lines) (whole : b.text = front ++ back) :
    b.front (Position.origin.advance front) = front := by
  rw [Buffer.front, ← pieces_text h, whole, Fragment.before_advance, joinLines_pieces]

theorem back_advance (h : Unbroken b.lines) (whole : b.text = front ++ back) :
    b.back (Position.origin.advance front) = back := by
  rw [Buffer.back, ← pieces_text h, whole, Fragment.after_advance, joinLines_pieces]

theorem offset_advance (h : Unbroken b.lines) (whole : b.text = front ++ back) :
    b.offset (Position.origin.advance front) = front.length := by
  rw [← length_front (has_advance h whole), front_advance h whole]

/-- Less text stands in front of an earlier place. -/
theorem offset_lt_offset (hp : b.Has p) (hq : b.Has q) (before : p < q) :
    b.offset p < b.offset q := by
  rw [offset, offset, clamp_eq_self hp, clamp_eq_self hq]
  rcases Position.lt_def.mp before with above | ⟨same, left⟩
  · -- The line of the first place, with its end, stands in front of the second one.
    obtain ⟨more, eq⟩ := Nat.exists_eq_add_of_lt above
    have inside : p.line < b.lines.length := hp.1
    have line : b.lineAt p.line = b.lines[p.line] := List.getD_eq_getElem _ _ inside
    have column := hp.2
    rw [lineLength, line] at column
    rw [eq, Nat.add_right_comm, List.take_add, List.take_succ_eq_append_getElem inside]
    simp only [List.map_append, List.sum_append, List.map_cons, List.map_nil, List.sum_singleton]
    omega
  · rw [same]
    exact Nat.add_lt_add_left left _

theorem offset_le_offset (hp : b.Has p) (hq : b.Has q) (ordered : p ≤ q) :
    b.offset p ≤ b.offset q := by
  rcases Position.lt_or_eq_of_le ordered with before | rfl
  · exact Nat.le_of_lt (offset_lt_offset hp hq before)
  · exact Nat.le_refl _

theorem offset_span (p q : Position) :
    b.offset (b.span p q).1 = min (b.offset p) (b.offset q) ∧
      b.offset (b.span p q).2 = max (b.offset p) (b.offset q) := by
  unfold span
  dsimp only
  split
  · next ordered =>
    have le := offset_le_offset (b.has_clamp p) (b.has_clamp q) ordered
    rw [offset_clamp, offset_clamp] at le ⊢
    exact ⟨(Nat.min_eq_left le).symm, (Nat.max_eq_right le).symm⟩
  · next reversed =>
    have le := offset_le_offset (b.has_clamp q) (b.has_clamp p) (Position.le_of_not_le reversed)
    rw [offset_clamp, offset_clamp] at le ⊢
    exact ⟨(Nat.min_eq_right le).symm, (Nat.max_eq_left le).symm⟩

/-- Two places cut the text into three parts. -/
theorem exists_parts (h : Unbroken b.lines) (p q : Position) :
    ∃ front segment back : Text, b.text = front ++ segment ++ back ∧
      b.span p q = (Position.origin.advance front, Position.origin.advance (front ++ segment)) ∧
      front.length = min (b.offset p) (b.offset q) ∧
      (front ++ segment).length = max (b.offset p) (b.offset q) := by
  obtain ⟨start, stop, ordered⟩ := b.has_span p q
  obtain ⟨least, greatest⟩ := offset_span p q
  generalize b.span p q = ends at *
  obtain ⟨s, t⟩ := ends
  have offsets := offset_le_offset start stop ordered
  have parts : b.front s ++ (b.front t).drop (b.offset s) = b.front t := by
    conv_rhs => rw [← List.take_append_drop (b.offset s) (b.front t)]
    rw [front_eq_take h start, front_eq_take h stop, List.take_take, Nat.min_eq_left offsets]
  refine ⟨b.front s, (b.front t).drop (b.offset s), b.back t, ?whole, ?places, ?least, ?greatest⟩
  case whole => rw [parts, front_append_back h stop.1]
  case places => rw [parts, advance_front h start.1 start.2, advance_front h stop.1 stop.2]
  case least => rw [length_front start, least]
  case greatest => rw [parts, length_front stop, greatest]

theorem text_delete (h : Unbroken b.lines) (whole : b.text = front ++ segment ++ back)
    (places : b.span p q =
      (Position.origin.advance front, Position.origin.advance (front ++ segment))) :
    (b.delete p q).text = front ++ back := by
  have whole' : b.text = front ++ (segment ++ back) := by rw [whole, List.append_assoc]
  have before := front_advance h whole'
  have behind := back_advance h whole
  rw [Buffer.text, delete, places]
  dsimp only
  rw [← pieces_front h, ← pieces_back h, ← Fragment.pieces_append_eq_glue, joinLines_pieces, before,
    behind]

theorem textBetween_eq (h : Unbroken b.lines) (whole : b.text = front ++ segment ++ back)
    (places : b.span p q =
      (Position.origin.advance front, Position.origin.advance (front ++ segment))) :
    b.textBetween p q = segment := by
  rw [textBetween, places, ← pieces_text h, whole]
  exact Fragment.joinLines_after_before front segment back

theorem has_start_of_delete (h : Unbroken b.lines) (p q : Position) :
    (b.delete p q).Has (b.span p q).1 := by
  obtain ⟨front, segment, back, whole, places, -, -⟩ := exists_parts h p q
  rw [places]
  exact has_advance (unbroken_delete h p q) (text_delete h whole places)

theorem has_stop_of_insert (h : Unbroken b.lines) (p : Position) (text : Text) :
    (b.insert p text).1.Has (b.insert p text).2 := by
  rw [stop_insert h]
  exact has_advance (unbroken_insert h p text) (text_insert h p text)

theorem span_advance (h : Unbroken b.lines) (whole : b.text = front ++ segment ++ back) :
    b.span (Position.origin.advance front) (Position.origin.advance (front ++ segment)) =
      (Position.origin.advance front, Position.origin.advance (front ++ segment)) := by
  have whole' : b.text = front ++ (segment ++ back) := by rw [whole, List.append_assoc]
  have ordered : Position.origin.advance front ≤ Position.origin.advance (front ++ segment) := by
    rw [Position.advance_append]
    exact Position.le_advance _ _
  rw [span, clamp_eq_self (has_advance h whole'), clamp_eq_self (has_advance h whole)]
  exact if_pos ordered

theorem span_insert (h : Unbroken b.lines) (p : Position) (text : Text) :
    (b.insert p text).1.span (b.clamp p) (b.insert p text).2 =
      (Position.origin.advance (b.front (b.clamp p)),
        Position.origin.advance (b.front (b.clamp p) ++ joinLines (splitLines text))) := by
  have place := advance_front h (b.has_clamp p).1 (b.has_clamp p).2
  have places := span_advance (unbroken_insert h p text) (text_insert h p text)
  rw [place, ← stop_insert h] at places
  rw [places, place, ← stop_insert h]

theorem delete_insert (h : Unbroken b.lines) (p : Position) (text : Text) :
    (b.insert p text).1.delete (b.clamp p) (b.insert p text).2 = b := by
  have inserted := unbroken_insert h p text
  have left := text_delete inserted (text_insert h p text) (span_insert h p text)
  rw [front_append_back h (b.has_clamp p).1] at left
  exact eq_of_text_eq (unbroken_delete inserted _ _) h left

theorem textBetween_insert (h : Unbroken b.lines) (p : Position) (text : Text) :
    (b.insert p text).1.textBetween (b.clamp p) (b.insert p text).2 = joinLines (splitLines text) :=
  textBetween_eq (unbroken_insert h p text) (text_insert h p text) (span_insert h p text)

/-- An insertion and a deletion do to the text what they are called for, at the numbers of
characters in front of the places, and none of their steps fails. -/
theorem edits_are_cuts_of_text (h : Unbroken b.lines) :
    (∀ (p : Position) (text : Text),
      (b.insert p text).1.text =
          b.text.take (b.offset p) ++ joinLines (splitLines text) ++ b.text.drop (b.offset p) ∧
        (b.insert p text).1.Has (b.insert p text).2 ∧
        (b.insert p text).1.offset (b.insert p text).2 =
          b.offset p + (joinLines (splitLines text)).length ∧
        (b.insert p text).1.textBetween (b.clamp p) (b.insert p text).2 =
          joinLines (splitLines text) ∧
        (b.insert p text).1.delete (b.clamp p) (b.insert p text).2 = b ∧
        b.insertByBytes? p text = some ((b.insert p text).1.lines, (b.insert p text).2)) ∧
    ∀ p q : Position,
      b.textBetween p q =
          (b.text.take (max (b.offset p) (b.offset q))).drop (min (b.offset p) (b.offset q)) ∧
        (b.delete p q).text =
          b.text.take (min (b.offset p) (b.offset q)) ++
            b.text.drop (max (b.offset p) (b.offset q)) ∧
        (b.delete p q).Has (b.span p q).1 ∧
        (b.delete p q).offset (b.span p q).1 = min (b.offset p) (b.offset q) ∧
        b.textByBytes? p q = some (b.textBetween p q) ∧
        b.deleteByBytes? p q = some ((b.delete p q).lines, b.textBetween p q) := by
  constructor
  · intro p text
    have there := b.has_clamp p
    have cut : b.front (b.clamp p) = b.text.take (b.offset p) ∧
        b.back (b.clamp p) = b.text.drop (b.offset p) := by
      rw [front_eq_take h there, back_eq_drop h there, offset_clamp]
      exact ⟨rfl, rfl⟩
    have length : (b.front (b.clamp p)).length = b.offset p := by
      rw [length_front there, offset_clamp]
    refine ⟨?_, has_stop_of_insert h p text, ?_, textBetween_insert h p text,
      delete_insert h p text, insertByBytes?_eq b p text⟩
    · rw [text_insert h, cut.1, cut.2]
    · rw [stop_insert h, offset_advance (unbroken_insert h p text) (text_insert h p text),
        List.length_append, length]
  · intro p q
    obtain ⟨front, segment, back, whole, places, least, greatest⟩ := exists_parts h p q
    have deleted := text_delete h whole places
    refine ⟨?_, ?_, has_start_of_delete h p q, ?_, textByBytes?_eq b p q, deleteByBytes?_eq b p q⟩
    · rw [textBetween_eq h whole places, whole, ← greatest, ← least, List.take_left, List.drop_left]
    · rw [deleted, whole, ← greatest, ← least, List.drop_left, List.append_assoc, List.take_left]
    · rw [places, offset_advance (unbroken_delete h p q) deleted, least]

def mixedLines : Buffer := ofLines ["aé".toList, "🙂b".toList]

theorem edits_are_cuts_of_text_mixedLines :
    Unbroken mixedLines.lines ∧
      (mixedLines.insert ⟨0, 9⟩ "x\r\ny".toList).1.text = "aéx\ny\n🙂b".toList ∧
      mixedLines.insertByBytes? ⟨0, 9⟩ "x\r\ny".toList =
        some (["aéx".toList, "y".toList, "🙂b".toList], ⟨1, 1⟩) ∧
      mixedLines.deleteByBytes? ⟨1, 1⟩ ⟨0, 1⟩ = some (["ab".toList], "é\n🙂".toList) := by
  have h : Unbroken mixedLines.lines := by
    unfold Unbroken
    decide
  obtain ⟨insertions, deletions⟩ := edits_are_cuts_of_text h
  obtain ⟨text, -, -, -, -, inserted⟩ := insertions ⟨0, 9⟩ "x\r\ny".toList
  obtain ⟨-, -, -, -, -, deleted⟩ := deletions ⟨1, 1⟩ ⟨0, 1⟩
  exact ⟨h, text.trans (by decide), inserted.trans (by decide), deleted.trans (by decide)⟩

end Buffer

end FeatureText
