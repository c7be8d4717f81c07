import FeatureText.Feature.Layout
import FeatureText.Proofs.Text.Fragment

/-! Where a text shows that it cannot be read. The line is one of the text, but columns count bytes,
so a line with wide characters may end before the column that is told. -/
namespace FeatureText

theorem newline_byte_not_mem {c : Char} (other : c ≠ '\n') : 10 ∉ String.utf8EncodeChar c := by
  have code : c.val.toNat ≠ 10 := fun same => other (Char.toNat_inj.mp same)
  have byte {n : Nat} (h : n % 256 ≠ 10) : (10 : UInt8) ≠ UInt8.ofNat n := fun same => by
    have value := congrArg UInt8.toNat same
    rw [UInt8.toNat_ofNat'] at value
    exact h value.symm
  rw [String.utf8EncodeChar]
  split
  · rw [List.mem_singleton]
    exact byte (by omega)
  · split
    · simp only [List.mem_cons, List.not_mem_nil, or_false, not_or]
      exact ⟨byte (by omega), byte (by omega)⟩
    · split
      · simp only [List.mem_cons, List.not_mem_nil, or_false, not_or]
        exact ⟨byte (by omega), byte (by omega), byte (by omega)⟩
      · simp only [List.mem_cons, List.not_mem_nil, or_false, not_or]
        exact ⟨byte (by omega), byte (by omega), byte (by omega), byte (by omega)⟩

namespace BytePosition

def pass (place : BytePosition) (byte : UInt8) : BytePosition :=
  if byte = 10 then ⟨place.line + 1, 0⟩ else ⟨place.line, place.column + 1⟩

variable {place : BytePosition} {text : Text} {offset : Nat}

theorem foldl_pass_of_not_mem {bytes : List UInt8} (h : 10 ∉ bytes) (place : BytePosition) :
    bytes.foldl pass place = ⟨place.line, place.column + bytes.length⟩ := by
  induction bytes generalizing place with
  | nil => rfl
  | cons byte bytes ih =>
    rw [List.mem_cons, not_or] at h
    rw [List.foldl_cons, pass, if_neg (Ne.symm h.1), ih h.2, List.length_cons, mk.injEq]
    exact ⟨rfl, Nat.add_right_comm place.column 1 bytes.length⟩

theorem advance_eq_foldl (place : BytePosition) (text : Text) (offset : Nat) :
    advance place text offset = ((utf8 text).take offset).foldl pass place := by
  induction text generalizing place offset with
  | nil => simp [advance, utf8]
  | cons c text ih =>
    have size : (String.utf8EncodeChar c).length = c.utf8Size := String.length_utf8EncodeChar c
    rw [advance, utf8, List.flatMap_cons, List.take_append, size, List.foldl_append]
    split
    · next inside =>
      have whole : offset - c.utf8Size = 0 := by omega
      rw [whole, List.take_zero, List.foldl_nil]
      have uncut : 10 ∉ (String.utf8EncodeChar c).take offset := by
        by_cases newline : c = '\n'
        · subst newline
          have none : offset = 0 := Nat.lt_one_iff.mp inside
          simp [none]
        · exact fun cut => newline_byte_not_mem newline (List.mem_of_mem_take cut)
      rw [foldl_pass_of_not_mem uncut, List.length_take_of_le (by omega)]
    · next outside =>
      rw [List.take_of_length_le (by omega)]
      split
      · next newline =>
        rw [ih, newline]
        rfl
      · next other =>
        rw [ih, foldl_pass_of_not_mem (newline_byte_not_mem other), size]
        rfl

theorem ofOffset_eq_foldl (text : Text) (offset : Nat) :
    ofOffset text offset = ((utf8 text).take offset).foldl pass ⟨1, 0⟩ :=
  advance_eq_foldl ⟨1, 0⟩ text offset

/-- What is read ends on a line of the text, in front of its end or at it. -/
theorem exists_piece_of_advance (place : BytePosition) (text : Text) (offset : Nat) :
    ∃ i piece, (pieces text)[i]? = some piece ∧ (advance place text offset).line = place.line + i ∧
      (advance place text offset).column ≤
        (if i = 0 then place.column else 0) + byteSize piece := by
  induction text generalizing place offset with
  | nil => exact ⟨0, [], rfl, rfl, Nat.le_refl _⟩
  | cons c text ih =>
    obtain ⟨first, more, cut⟩ := exists_pieces_eq_cons text
    rw [advance]
    by_cases newline : c = '\n'
    · rw [newline, pieces_newline_cons, if_pos rfl]
      split
      · next inside =>
        have none : offset = 0 := Nat.lt_one_iff.mp inside
        exact ⟨0, [], rfl, rfl, by simp [none]⟩
      · obtain ⟨i, piece, there, line, column⟩ := ih ⟨place.line + 1, 0⟩ (offset - '\n'.utf8Size)
        refine ⟨i + 1, piece, there, line.trans (Nat.add_right_comm place.line 1 i), ?_⟩
        simpa using column
    · rw [if_neg newline, pieces_cons newline cut]
      split
      · refine ⟨0, c :: first, rfl, rfl, ?_⟩
        simp only [if_true, byteSize_cons]
        omega
      · obtain ⟨i, piece, there, line, column⟩ :=
          ih ⟨place.line, place.column + c.utf8Size⟩ (offset - c.utf8Size)
        rw [cut] at there
        cases i with
        | zero =>
          obtain rfl : first = piece := Option.some.inj there
          refine ⟨0, c :: first, rfl, line, ?_⟩
          simp only [if_true, byteSize_cons] at column ⊢
          omega
        | succ i => exact ⟨i + 1, piece, there, line, column⟩

end BytePosition

theorem Fragment.glue_nil_cons {left : List Line} (some : left ≠ []) (more : List Line) :
    glue left ([] :: more) = left ++ more := by
  induction left with
  | nil => exact absurd rfl some
  | cons line left ih =>
    cases left with
    | nil => rw [glue_singleton_cons, List.append_nil]; rfl
    | cons next left =>
      rw [glue_cons_of_ne_nil _ _ (by simp), ih (by simp)]
      rfl

theorem pieces_enclosed (text : Text) :
    pieces (enclosed text) = ['['] :: (pieces text ++ [[']']]) := by
  have inner : pieces (text ++ ['\n', ']']) = pieces text ++ [[']']] := by
    rw [Fragment.pieces_append_eq_glue]
    exact Fragment.glue_nil_cons (pieces_ne_nil text) [[']']]
  rw [← inner]
  rfl

theorem byteSize_le_dropReturn (piece : Text) :
    byteSize piece ≤ byteSize (dropReturn piece) + 1 := by
  fun_induction dropReturn piece with
  | case1 => exact Nat.zero_le _
  | case2 => exact Nat.le_refl _
  | case3 c rest _ ih =>
    rw [byteSize_cons, byteSize_cons]
    omega

/-- However much is read of a text with its brackets, the place that is told is on a line of it,
and its column at most the bytes of that line. -/
theorem placeIn_le (text : Text) (offset : Nat) :
    (placeIn text offset).line < (splitLines text).length ∧
      (placeIn text offset).column ≤
        byteSize ((splitLines text).getD (placeIn text offset).line []) := by
  obtain ⟨i, piece, there, line, column⟩ :=
    BytePosition.exists_piece_of_advance ⟨1, 0⟩ (enclosed text) offset
  have count := length_pieces text
  rw [length_splitLines]
  simp only [placeIn, BytePosition.ofOffset, line]
  refine ⟨by omega, ?_⟩
  rw [pieces_enclosed] at there
  cases i with
  | zero =>
    obtain rfl : ['['] = piece := Option.some.inj there
    have bracket : byteSize ['['] = 1 := rfl
    simp only [if_true] at column
    omega
  | succ i =>
    rw [List.getElem?_cons_succ] at there
    simp only [if_neg (Nat.succ_ne_zero i)] at column
    by_cases inside : i < (pieces text).length
    · rw [List.getElem?_append_left inside] at there
      have found : (splitLines text).getD i [] = dropReturn piece := by
        rw [List.getD_eq_getElem?_getD, splitLines, List.getElem?_map, there]
        rfl
      have same : min (1 + (i + 1) - 2) (text.count '\n') = i := by omega
      have kept := byteSize_le_dropReturn piece
      rw [same, found]
      omega
    · -- Behind the text stands the closing bracket alone.
      rw [List.getElem?_append_right (Nat.not_lt.mp inside)] at there
      have last := List.mem_of_getElem? there
      rw [List.mem_singleton] at last
      have bracket : byteSize piece = 1 := by rw [last]; rfl
      omega

namespace Misreading

variable {text : Text} {m : Misreading}

theorem exists_offset (h : parseFeatures text = .error m) :
    ∃ offset, Json.parse (enclosed text) = .error ⟨m.cause, offset⟩ ∧
      m.place = placeIn text offset := by
  unfold parseFeatures at h
  split at h
  · cases h
  · next refusal refused =>
    obtain rfl := Except.error.inj h
    exact ⟨refusal.offset, refused, rfl⟩

/-- A text that cannot be read is told a line of its own, and a column that is one less than the
number of bytes that were read of the line. -/
theorem column_counts_bytes (h : parseFeatures text = .error m) :
    ∃ offset, Json.parse (enclosed text) = .error ⟨m.cause, offset⟩ ∧
      let read := ((utf8 (enclosed text)).take offset).foldl BytePosition.pass ⟨1, 0⟩
      let line := (splitLines text).getD m.place.line []
      m.place = ⟨min (read.line - 2) ((splitLines text).length - 1), read.column - 1⟩ ∧
      m.place.line < (splitLines text).length ∧
      m.place.column ≤ byteSize line ∧
      (m.place.column ≤ line.length ↔ read.column ≤ line.length + 1) := by
  obtain ⟨offset, refused, place⟩ := exists_offset h
  refine ⟨offset, refused, ?_⟩
  intro read line
  have counted : BytePosition.ofOffset (enclosed text) offset = read :=
    BytePosition.ofOffset_eq_foldl (enclosed text) offset
  have told : m.place =
      ⟨min (read.line - 2) ((splitLines text).length - 1), read.column - 1⟩ := by
    rw [place, length_splitLines, placeIn, counted]
    rfl
  obtain ⟨inside, bytes⟩ := placeIn_le text offset
  rw [← place] at inside bytes
  refine ⟨told, inside, bytes, ?_⟩
  rw [told]
  exact Nat.sub_le_iff_le_add

def of? (text : Text) : Option Misreading :=
  match parseFeatures text with
  | .ok _ => none
  | .error m => some m

theorem of?_eq_some_iff : of? text = some m ↔ parseFeatures text = .error m := by
  unfold of?
  cases parseFeatures text <;> simp

def missingComma : Text := ['"', 'é', '"', ',', '\n', '1', ' ', '2']

theorem column_counts_bytes_missingComma :
    parseFeatures missingComma = .error ⟨.expectedCommaOrListEnd, ⟨1, 2⟩⟩ ∧
      1 < (splitLines missingComma).length ∧
      2 ≤ byteSize ((splitLines missingComma).getD 1 []) := by
  have refused : parseFeatures missingComma = .error ⟨.expectedCommaOrListEnd, ⟨1, 2⟩⟩ :=
    of?_eq_some_iff.mp (by decide +kernel)
  obtain ⟨_, -, -, inside, bytes, -⟩ := column_counts_bytes refused
  exact ⟨refused, inside, bytes⟩

/-- The line has five characters, and the place that is told is behind the sixth. -/
theorem column_passes_line_end :
    let text := ['"', 'é', 'é', '"', '1']
    let m : Misreading := ⟨.expectedCommaOrListEnd, ⟨0, 6⟩⟩
    parseFeatures text = .error m ∧
      ¬m.place.column ≤ ((splitLines text).getD m.place.line []).length :=
  ⟨of?_eq_some_iff.mp (by decide +kernel), by decide⟩

end Misreading

end FeatureText
