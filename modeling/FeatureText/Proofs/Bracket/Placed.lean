import FeatureText.Proofs.Bracket.Nested
import FeatureText.Proofs.Text.Fragment

/-! Tokens of a text that spells contents. The tokenizer knows nothing of numbers and words, and
ends a literal with its line; on such a text it finds all brackets that the reader finds. -/
namespace FeatureText

open FeatureText.Bracket Lexeme

def Content.tokens (spelling : Text) (column : Nat) : Content → List Token
  | .opening bracket => [.opening bracket column]
  | .closing bracket => [.closing bracket column]
  | .colon => [.colon]
  | .comma => [.comma]
  | .string _ => [.quoted spelling.tail.dropLast column]
  | _ => []

theorem Content.filterMap_tokens (content : Content) (spelling : Text) (column : Nat) :
    (content.tokens spelling column).filterMap Token.side? = content.side?.toList := by
  cases content <;> rfl

namespace Token

theorem scan_plain {front : Text} (h : ∀ c ∈ front, c ≠ '"' ∧ ∀ column, mark? c column = none)
    (column : Nat) (rest : Text) :
    scan .outside column (front ++ rest) = scan .outside (column + front.length) rest := by
  induction front generalizing column with
  | nil => rfl
  | cons c front ih =>
    rw [List.forall_mem_cons] at h
    rw [List.cons_append, scan, if_neg h.1.1, h.1.2, List.length_cons]
    refine (ih h.2 (column + 1)).trans ?_
    rw [Nat.add_assoc, Nat.add_comm 1]

theorem mark?_eq_none {c : Char} (h : ∀ special ∈ ['{', '[', '}', ']', ':', ','], c ≠ special)
    (column : Nat) : mark? c column = none := by
  simp only [List.forall_mem_cons] at h
  simp [mark?, Bracket.ofOpening?, Bracket.ofClosing?, h]

theorem not_special_of_isMark {c : Char} (h : Numeral.isMark c) :
    ∀ special ∈ ['"', '{', '[', '}', ']', ':', ','], c ≠ special := by
  simp only [List.forall_mem_cons]
  refine ⟨?_, ?_, ?_, ?_, ?_, ?_, ?_, by simp⟩ <;> (rintro rfl; revert h; decide)

theorem not_special_of_isBlank {c : Char} (h : isBlank c) :
    ∀ special ∈ ['"', '{', '[', '}', ']', ':', ','], c ≠ special := by
  simp only [List.forall_mem_cons]
  refine ⟨?_, ?_, ?_, ?_, ?_, ?_, ?_, by simp⟩ <;> (rintro rfl; revert h; decide)

theorem scan_not_special {front : Text}
    (h : ∀ c ∈ front, ∀ special ∈ ['"', '{', '[', '}', ']', ':', ','], c ≠ special)
    (column : Nat) (rest : Text) :
    scan .outside column (front ++ rest) = scan .outside (column + front.length) rest := by
  refine scan_plain (fun c hc => ?_) column rest
  have special := List.forall_mem_cons.mp (h c hc)
  exact ⟨special.1, mark?_eq_none special.2⟩

theorem scan_raw {raw : Text} (h : Quoted.IsRaw raw) (start : Nat) (done : Text) (column : Nat)
    (rest : Text) :
    scan (.inside start done false) column (raw ++ rest) =
      .quoted (done.reverse ++ raw.dropLast) start ::
        scan .outside (column + raw.length) rest := by
  induction h generalizing done column with
  | close => simp [scan]
  | @plain c raw quote backslash _ h ih =>
    have some : raw ≠ [] := by cases h <;> simp
    rw [List.cons_append, scan, if_neg quote, beq_false_of_ne backslash, ih,
      List.dropLast_cons_of_ne_nil some, List.reverse_cons, List.length_cons]
    simp only [List.append_assoc, List.singleton_append, List.cons.injEq, true_and]
    rw [Nat.add_assoc, Nat.add_comm 1]
  | @escape letter raw _ h ih =>
    have some : raw ≠ [] := by cases h <;> simp
    rw [List.cons_append, List.cons_append, scan, if_neg (by decide), beq_self_eq_true, scan, ih,
      List.dropLast_cons_of_ne_nil (by simp), List.dropLast_cons_of_ne_nil some]
    have columns : column + 1 + 1 + raw.length = column + (raw.length + 1 + 1) := by omega
    simp only [List.reverse_cons, List.append_assoc, List.cons_append, List.nil_append,
      List.length_cons, columns]

theorem scan_spelling {content : Content} {spelling : Text} {stops : Char → Bool}
    (h : content.Spells spelling stops) (column : Nat) (rest : Text) :
    scan .outside column (spelling ++ rest) =
      content.tokens spelling column ++ scan .outside (column + spelling.length) rest := by
  cases h with
  | opening bracket | closing bracket => cases bracket <;> rfl
  | colon | comma => rfl
  | nullWord | trueWord | falseWord => exact scan_not_special (by simp) column rest
  | number written =>
    have marks := Numeral.isMark_spelling written
    exact scan_not_special (fun c hc => not_special_of_isMark (marks c hc)) column rest
  | @string literal h =>
    rw [List.cons_append, scan, if_pos rfl, scan_raw (Quoted.isRaw_of_read (h []))]
    simp only [Content.tokens, List.tail_cons, List.reverse_nil, List.nil_append,
      List.singleton_append, List.length_cons, List.cons.injEq, true_and]
    rw [Nat.add_assoc, Nat.add_comm 1]

/-- The tokens of a text that begins at a place outside of literals. -/
def placedAt (p : Position) (text : Text) : List (Nat × Token) :=
  match pieces text with
  | [] => []
  | first :: more =>
    (scan .outside p.column first).map (p.line, ·) ++ placedFrom (p.line + 1) more

theorem placed_pieces (text : Text) : placed (pieces text) = placedAt .origin text := by
  obtain ⟨first, more, hp⟩ := exists_pieces_eq_cons text
  simp [placedAt, placed, placedFrom, hp, Position.origin, ofLine]

theorem placedAt_newline (p : Position) (rest : Text) :
    placedAt p ('\n' :: rest) = placedAt ⟨p.line + 1, 0⟩ rest := by
  obtain ⟨first, more, hp⟩ := exists_pieces_eq_cons rest
  simp only [placedAt, pieces_newline_cons, hp]
  rfl

theorem placedAt_append_of_scan {p : Position} {front : Text} {tokens : List Token}
    (line : '\n' ∉ front)
    (h : ∀ rest, scan .outside p.column (front ++ rest) =
      tokens ++ scan .outside (p.column + front.length) rest) (rest : Text) :
    placedAt p (front ++ rest) = tokens.map (p.line, ·) ++ placedAt (p.advance front) rest := by
  obtain ⟨first, more, hp⟩ := exists_pieces_eq_cons rest
  simp only [placedAt, pieces_append line hp, hp, h, List.map_append, List.append_assoc,
    Position.advance_of_newline_not_mem p line]

theorem placedAt_blank {c : Char} (h : isBlank c) (p : Position) (rest : Text) :
    placedAt p (c :: rest) = placedAt (p.advance [c]) rest := by
  by_cases hc : c = '\n'
  · subst hc
    exact placedAt_newline p rest
  · have line : '\n' ∉ [c] := by simpa using Ne.symm hc
    have blank (rest : Text) :
        scan .outside p.column ([c] ++ rest) = [] ++ scan .outside (p.column + 1) rest :=
      scan_not_special (by simpa using not_special_of_isBlank h) p.column rest
    exact placedAt_append_of_scan line blank rest

theorem placedAt_spelling {content : Content} {spelling : Text} {stops : Char → Bool}
    (h : content.Spells spelling stops) (p : Position) (rest : Text) :
    placedAt p (spelling ++ rest) =
      (content.tokens spelling p.column).map (p.line, ·) ++ placedAt (p.advance spelling) rest :=
  placedAt_append_of_scan h.newline_not_mem (scan_spelling h p.column) rest

theorem placedAt_append {text : Text} {contents : List Content} (h : Spelled text contents)
    (p : Position) (rest : Text) :
    placedAt p (text ++ rest) = placedAt p text ++ placedAt (p.advance text) rest := by
  induction h generalizing p with
  | nil => rfl
  | @blank c text contents h _ ih =>
    rw [List.cons_append, placedAt_blank h, placedAt_blank h, ih]
    rfl
  | content h _ _ ih =>
    rw [List.append_assoc, placedAt_spelling h, placedAt_spelling h, ih, List.append_assoc,
      Position.advance_append]

theorem filterMap_placedSide (line : Nat) (tokens : List Token) :
    (tokens.map (line, ·)).filterMap placedSide? = tokens.filterMap side? := by
  rw [List.filterMap_map]
  rfl

/-- The tokenizer and the reader see the same brackets. -/
theorem filterMap_placedAt {text : Text} {contents : List Content} (h : Spelled text contents)
    (p : Position) :
    (placedAt p text).filterMap placedSide? = contents.filterMap Content.side? := by
  induction h generalizing p with
  | nil => rfl
  | blank h _ ih => rw [placedAt_blank h, ih]
  | @content content spelling rest stops contents h _ _ ih =>
    rw [placedAt_spelling h, List.filterMap_append, filterMap_placedSide, ih,
      Content.filterMap_tokens]
    cases hs : content.side? <;> simp [hs]

theorem nested_placedAt {text : Text} {contents : List Content} (h : Spelled text contents)
    (nested : Nested Content.side? contents) (p : Position) :
    Nested placedSide? (placedAt p text) :=
  nested.of_filterMap_eq (filterMap_placedAt h p)

end Token

theorem isBalanced_pieces {text : Text} {contents : List Content} (h : Spelled text contents)
    (nested : Nested Content.side? contents) : isBalanced (pieces text) := by
  have placed := Token.nested_placedAt h nested .origin
  have word : Nested Token.side? ((pieces text).flatMap Token.ofLine) := by
    refine placed.of_filterMap_eq ?_
    rw [← Token.placed_pieces, Token.placed, ← Token.map_snd_placedFrom 0, List.filterMap_map]
    rfl
  have := matched_append word [] []
  rw [List.append_nil] at this
  exact this

end FeatureText
