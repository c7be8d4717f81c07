import FeatureText.Proofs.Text.Buffer
import FeatureText.Text.Bytes
import Mathlib.Data.List.GetD
import Mathlib.Data.List.ModifyLast

/-! Edits by bytes and line numbers. A line that is kept in its UTF-8 form is cut at a byte, which
fails behind the line and inside of a character, and lines are taken out by number, which fails for
lines that are not there. Done that way the edits of a buffer never fail, and they come to the
same. -/
namespace FeatureText

/-- The byte where a column begins, or where the line ends if there is no such column. -/
def byteIndex : Line → Nat → Nat
  | c :: line, column + 1 => c.utf8Size + byteIndex line column
  | _, _ => 0

/-- What stands in front of a byte, and what stands from there on. -/
def cutAt? : Line → Nat → Option (Line × Line)
  | line, 0 => some ([], line)
  | [], _ + 1 => none
  | c :: line, index + 1 =>
    if c.utf8Size ≤ index + 1 then
      (cutAt? line (index + 1 - c.utf8Size)).map fun parts => (c :: parts.1, parts.2)
    else none

def slice? (line : Line) (start stop : Nat) : Option Line := do
  let front ← cutAt? line stop
  let between ← cutAt? front.1 start
  return between.2

def rows? (lines : List Line) (first stop : Nat) : Option (List Line) :=
  if first ≤ stop ∧ stop ≤ lines.length then some ((lines.take stop).drop first) else none

def splice? (lines : List Line) (first last : Nat) (new : List Line) : Option (List Line) :=
  if first ≤ last + 1 ∧ last < lines.length then
    some (lines.take first ++ new ++ lines.drop (last + 1))
  else none

def spliced (head tail : Line) (new : List Line) : List Line :=
  (new.modifyHead (head ++ ·)).modifyLast (· ++ tail)

namespace Buffer

def insertByBytes? (b : Buffer) (p : Position) (text : Text) : Option (List Line × Position) := do
  let p := b.clamp p
  let line ← b.line? p.line
  let cut ← cutAt? line (byteIndex line p.column)
  let new := splitLines text
  let reach := (new.getLastD []).length
  let stop : Position :=
    if new.length = 1 then ⟨p.line, p.column + reach⟩ else ⟨p.line + new.length - 1, reach⟩
  let lines ← splice? b.lines p.line p.line (spliced cut.1 cut.2 new)
  return (lines, stop)

def textByBytes? (b : Buffer) (p q : Position) : Option Text := do
  let start := (b.span p q).1
  let stop := (b.span p q).2
  let first ← b.line? start.line
  if start.line = stop.line then
    slice? first (byteIndex first start.column) (byteIndex first stop.column)
  else
    let head ← cutAt? first (byteIndex first start.column)
    let rows ← rows? b.lines (start.line + 1) stop.line
    let last ← b.line? stop.line
    let tail ← cutAt? last (byteIndex last stop.column)
    return head.2 ++ rows.flatMap ('\n' :: ·) ++ '\n' :: tail.1

/-- The lines that a deletion leaves, and the text that it takes away. -/
def deleteByBytes? (b : Buffer) (p q : Position) : Option (List Line × Text) := do
  let start := (b.span p q).1
  let stop := (b.span p q).2
  if start = stop then return (b.lines, [])
  else
    let removed ← b.textByBytes? start stop
    let first ← b.line? start.line
    let head ← cutAt? first (byteIndex first start.column)
    let last ← b.line? stop.line
    let tail ← cutAt? last (byteIndex last stop.column)
    let lines ← splice? b.lines start.line stop.line [head.1 ++ tail.2]
    return (lines, removed)

end Buffer

theorem append_of_cutAt? {line head tail : Line} {index : Nat}
    (h : cutAt? line index = some (head, tail)) : line = head ++ tail ∧ byteSize head = index := by
  fun_induction cutAt? line index generalizing head with
  | case1 line =>
    cases h
    exact ⟨rfl, rfl⟩
  | case2 => cases h
  | case3 c line index fits ih =>
    obtain ⟨parts, cut, eq⟩ := Option.map_eq_some_iff.mp h
    cases eq
    obtain ⟨whole, size⟩ := ih cut
    refine ⟨congrArg (c :: ·) whole, ?_⟩
    rw [byteSize_cons, size]
    omega
  | case4 => cases h

theorem cutAt?_append (head tail : Line) :
    cutAt? (head ++ tail) (byteSize head) = some (head, tail) := by
  induction head with
  | nil => cases tail <;> rfl
  | cons c head ih =>
    have size := c.utf8Size_pos
    obtain ⟨index, hi⟩ : ∃ index, c.utf8Size + byteSize head = index + 1 :=
      Nat.exists_eq_add_one.mpr (by omega)
    have rest : index + 1 - c.utf8Size = byteSize head := by omega
    rw [List.cons_append, byteSize_cons, hi, cutAt?, if_pos (by omega), rest, ih]
    rfl

/-- A line is cut between two of its characters or not at all. -/
theorem cutAt?_eq_some_iff {line head tail : Line} {index : Nat} :
    cutAt? line index = some (head, tail) ↔ line = head ++ tail ∧ byteSize head = index := by
  refine ⟨append_of_cutAt?, ?_⟩
  rintro ⟨rfl, rfl⟩
  exact cutAt?_append head tail

theorem byteIndex_eq (line : Line) (column : Nat) :
    byteIndex line column = byteSize (line.take column) := by
  induction line generalizing column with
  | nil => cases column <;> rfl
  | cons c line ih =>
    cases column with
    | zero => rfl
    | succ column => exact congrArg (c.utf8Size + ·) (ih column)

theorem cutAt?_byteIndex (line : Line) (column : Nat) :
    cutAt? line (byteIndex line column) = some (line.take column, line.drop column) :=
  cutAt?_eq_some_iff.mpr ⟨(List.take_append_drop column line).symm, (byteIndex_eq line column).symm⟩

theorem slice?_byteIndex (line : Line) {start stop : Nat} (ordered : start ≤ stop) :
    slice? line (byteIndex line start) (byteIndex line stop) =
      some ((line.take stop).drop start) := by
  have inner : byteIndex line start = byteIndex (line.take stop) start := by
    rw [byteIndex_eq, byteIndex_eq, List.take_take, Nat.min_eq_left ordered]
  rw [slice?, cutAt?_byteIndex, Option.bind_eq_bind, Option.bind_some, inner, cutAt?_byteIndex]
  rfl

theorem joinLines_cons_concat (first last : Line) (rows : List Line) :
    joinLines (first :: (rows ++ [last])) = first ++ rows.flatMap ('\n' :: ·) ++ '\n' :: last := by
  induction rows generalizing first with
  | nil => simp [joinLines_cons_cons]
  | cons row rows ih =>
    rw [List.cons_append, joinLines_cons_cons, ih]
    simp

namespace Fragment

theorem glue_concat_cons (left : List Line) (line first : Line) (more : List Line) :
    glue (left ++ [line]) (first :: more) = left ++ (line ++ first) :: more := by
  induction left with
  | nil => rfl
  | cons other left ih =>
    rw [List.cons_append, glue_cons_of_ne_nil _ _ (by simp), ih]
    rfl

theorem stop_concat (left : List Line) (last : Line) :
    stop (left ++ [last]) = ⟨left.length, last.length⟩ := by
  induction left with
  | nil => rfl
  | cons line left ih =>
    cases left with
    | nil => rfl
    | cons next left =>
      rw [List.cons_append, List.cons_append, stop_cons_cons, ← List.cons_append, ih]
      rfl

/-- A text in lines goes between two parts by a change of its first and of its last line. -/
theorem glue_glue_eq_spliced (left : List Line) (head tail : Line) {new : List Line}
    (some : new ≠ []) (right : List Line) :
    glue (glue (left ++ [head]) new) (tail :: right) = left ++ spliced head tail new ++ right := by
  obtain ⟨first, more, rfl⟩ := List.exists_cons_of_ne_nil some
  rw [glue_concat_cons, spliced, List.modifyHead_cons]
  rcases List.eq_nil_or_concat' ((head ++ first) :: more) with none | ⟨init, last, eq⟩
  · cases none
  · rw [eq, List.modifyLast_concat, ← List.append_assoc, glue_concat_cons]
    simp

theorem stop_glue_concat (left : List Line) (head : Line) {new : List Line} (some : new ≠ []) :
    stop (glue (left ++ [head]) new) =
      if new.length = 1 then ⟨left.length, head.length + (new.getLastD []).length⟩
      else ⟨left.length + new.length - 1, (new.getLastD []).length⟩ := by
  obtain ⟨first, more, rfl⟩ := List.exists_cons_of_ne_nil some
  rw [glue_concat_cons]
  rcases List.eq_nil_or_concat' more with rfl | ⟨init, last, rfl⟩
  · rw [stop_concat, List.length_append]
    rfl
  · have final : (first :: (init ++ [last])).getLastD [] = last := by
      rw [← List.cons_append, List.getLastD_concat]
    rw [← List.cons_append, ← List.append_assoc, stop_concat, final, if_neg (by simp)]
    simp [Nat.add_assoc]

theorem after_before_of_eq {lines : List Line} {p q : Position} (same : p.line = q.line)
    (inside : q.line < lines.length) :
    after p (before q lines) = [((lines.getD q.line []).take q.column).drop p.column] := by
  have front : (lines.take q.line).length = q.line := List.length_take_of_le (Nat.le_of_lt inside)
  have rest : (before q lines).drop (q.line + 1) = [] :=
    List.drop_eq_nil_of_le (by simp [before, front])
  rw [after, same, rest, before, List.getD_append_right _ _ _ _ (Nat.le_of_eq front), front,
    Nat.sub_self, List.getD_cons_zero]

theorem after_before_of_lt {lines : List Line} {p q : Position} (later : p.line < q.line)
    (inside : q.line < lines.length) :
    after p (before q lines) =
      (lines.getD p.line []).drop p.column ::
        ((lines.take q.line).drop (p.line + 1) ++ [(lines.getD q.line []).take q.column]) := by
  have front : (lines.take q.line).length = q.line := List.length_take_of_le (Nat.le_of_lt inside)
  have first : (before q lines).getD p.line [] = lines.getD p.line [] := by
    rw [before, List.getD_append _ _ _ _ (front.symm ▸ later)]
    simp [List.getElem?_take_of_lt later]
  rw [after, first, before, List.drop_append_of_le_length (front.symm ▸ later)]

end Fragment

namespace Buffer

variable {b : Buffer} {p q : Position}

theorem line?_of_lt {index : Nat} (h : index < b.lineCount) :
    b.line? index = some (b.lineAt index) := by
  rw [line?, lineAt, List.getD_eq_getElem?_getD, List.getElem?_eq_getElem h]
  rfl

theorem splice?_of_le {first last : Nat} (ordered : first ≤ last) (there : last < b.lineCount)
    (new : List Line) :
    splice? b.lines first last new = some (b.lines.take first ++ new ++ b.lines.drop (last + 1)) :=
  if_pos ⟨Nat.le_succ_of_le ordered, there⟩

theorem insertByBytes?_eq (b : Buffer) (p : Position) (text : Text) :
    b.insertByBytes? p text = some ((b.insert p text).1.lines, (b.insert p text).2) := by
  have there := b.has_clamp p
  have filled := splitLines_ne_nil text
  have front : (b.lines.take (b.clamp p).line).length = (b.clamp p).line :=
    List.length_take_of_le (Nat.le_of_lt there.1)
  have head : ((b.lineAt (b.clamp p).line).take (b.clamp p).column).length = (b.clamp p).column :=
    List.length_take_of_le there.2
  have lines := Fragment.glue_glue_eq_spliced (b.lines.take (b.clamp p).line)
    ((b.lineAt (b.clamp p).line).take (b.clamp p).column)
    ((b.lineAt (b.clamp p).line).drop (b.clamp p).column) filled
    (b.lines.drop ((b.clamp p).line + 1))
  have stop := Fragment.stop_glue_concat (b.lines.take (b.clamp p).line)
    ((b.lineAt (b.clamp p).line).take (b.clamp p).column) filled
  rw [front, head] at stop
  simp only [insertByBytes?, line?_of_lt there.1, cutAt?_byteIndex,
    splice?_of_le (Nat.le_refl _) there.1, Option.bind_eq_bind, Option.bind_some]
  rw [← lines, ← stop]
  rfl

theorem clamp_eq_self (h : b.Has p) : b.clamp p = p := by
  have line : min p.line (b.lineCount - 1) = p.line := Nat.min_eq_left (Nat.le_sub_one_of_lt h.1)
  rw [clamp, line, Nat.min_eq_left h.2]

theorem has_span (b : Buffer) (p q : Position) :
    b.Has (b.span p q).1 ∧ b.Has (b.span p q).2 ∧ (b.span p q).1 ≤ (b.span p q).2 := by
  unfold span
  dsimp only
  split
  · next ordered => exact ⟨b.has_clamp p, b.has_clamp q, ordered⟩
  · next reversed => exact ⟨b.has_clamp q, b.has_clamp p, Position.le_of_not_le reversed⟩

theorem span_span (b : Buffer) (p q : Position) :
    b.span (b.span p q).1 (b.span p q).2 = b.span p q := by
  obtain ⟨start, stop, ordered⟩ := b.has_span p q
  rw [span, clamp_eq_self start, clamp_eq_self stop]
  exact if_pos ordered

theorem textByBytes?_eq (b : Buffer) (p q : Position) :
    b.textByBytes? p q = some (b.textBetween p q) := by
  obtain ⟨start, stop, ordered⟩ := b.has_span p q
  rw [textByBytes?, textBetween]
  generalize b.span p q = ends at *
  obtain ⟨s, t⟩ := ends
  simp only [line?_of_lt start.1, line?_of_lt stop.1, cutAt?_byteIndex, Option.bind_eq_bind,
    Option.bind_some]
  rcases ordered with later | ⟨same, columns⟩
  · have rows : rows? b.lines (s.line + 1) t.line =
        some ((b.lines.take t.line).drop (s.line + 1)) :=
      if_pos ⟨later, Nat.le_of_lt stop.1⟩
    rw [if_neg (Nat.ne_of_lt later), rows, Fragment.after_before_of_lt later stop.1,
      joinLines_cons_concat]
    rfl
  · rw [if_pos same, slice?_byteIndex _ columns, Fragment.after_before_of_eq same stop.1,
      joinLines_singleton, same]
    rfl

theorem deleteByBytes?_eq (b : Buffer) (p q : Position) :
    b.deleteByBytes? p q = some ((b.delete p q).lines, b.textBetween p q) := by
  obtain ⟨start, stop, ordered⟩ := b.has_span p q
  have between : b.textBetween (b.span p q).1 (b.span p q).2 = b.textBetween p q := by
    rw [textBetween, span_span]
    rfl
  rw [deleteByBytes?, textByBytes?_eq, between]
  rw [delete, textBetween]
  generalize b.span p q = ends at *
  obtain ⟨s, t⟩ := ends
  simp only [line?_of_lt start.1, line?_of_lt stop.1, cutAt?_byteIndex, Option.bind_eq_bind,
    Option.bind_some]
  split
  · next empty =>
    subst empty
    rw [Fragment.glue_before_after start.1, Fragment.after_before_of_eq rfl stop.1]
    simp
  · rw [splice?_of_le (Position.line_le ordered) stop.1]
    simp [Fragment.before, Fragment.after, Fragment.glue_concat_cons]
    rfl

end Buffer

end FeatureText
