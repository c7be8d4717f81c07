import FeatureText.Proofs.Bracket.Literal
import FeatureText.Proofs.Feature.Layout
import FeatureText.Proofs.Json.Format
import FeatureText.Proofs.Motion
import FeatureText.Proofs.Text.Anchor
import FeatureText.Proofs.Text.Break
import FeatureText.Proofs.Text.Buffer

/-! The strings of a readable feature list. No string of JSON holds a line feed, so a reader that
begins each line outside of literals and one that carries its state from line to line find the same
characters in literals: those of the strings that the text spells out. -/
namespace FeatureText

open Significant Content Token

/-- The character of this number belongs to a string among the contents that a text spells out, its
quotes included. -/
def InString (text : Text) (contents : List Content) (i : Nat) : Prop :=
  ∃ before value after front spelling back, contents = before ++ .string value :: after ∧
    text = front ++ (spelling ++ back) ∧ Spelled front before ∧
    Spells (.string value) spelling (fun _ => false) ∧ Spelled back after ∧
    front.length ≤ i ∧ i < front.length + spelling.length

/-- The character at a place is in a literal, its quotes included, if a literal may run on from line
to line. -/
def Significant.IsQuoted (lines : List Line) (p : Position) : Prop :=
  ∃ c, charAt? lines p = some c ∧
    let state := (Fragment.before p lines).flatten.foldl Where.step .outside
    state ≠ .outside ∨ state.step c ≠ .outside

variable {text spelling raw : Text} {contents : List Content} {content : Content}
  {stops : Char → Bool} {lines : List Line} {i : Nat} {c : Char}

theorem foldl_step_of_quote_not_mem (plain : '"' ∉ text) :
    text.foldl Where.step .outside = .outside := by
  induction text with
  | nil => rfl
  | cons c text ih =>
    rw [List.mem_cons, not_or] at plain
    rw [List.foldl_cons, outside_step_eq_iff.mpr (Ne.symm plain.1), ih plain.2]

/-- Behind an opening quote the closing one leads out of the literal, and nothing in front of it. -/
theorem foldl_step_of_isRaw (h : Quoted.IsRaw raw) :
    raw.foldl Where.step .inside = .outside ∧
      ∀ j < raw.length, (raw.take j).foldl Where.step .inside ≠ .outside := by
  have start : Where.inside ≠ .outside := by decide
  have escaped : Where.escaped ≠ .outside := by decide
  induction h with
  | close =>
    refine ⟨rfl, fun j inside => ?_⟩
    obtain rfl : j = 0 := Nat.lt_one_iff.mp inside
    exact start
  | @plain c raw quote backslash _ _ ih =>
    have stays : Where.inside.step c = .inside := by simp [Where.step, quote, backslash]
    refine ⟨by rw [List.foldl_cons, stays, ih.1], fun j inside => ?_⟩
    cases j with
    | zero => exact start
    | succ j =>
      rw [List.take_succ_cons, List.foldl_cons, stays]
      exact ih.2 j (Nat.lt_of_succ_lt_succ inside)
  | @escape letter raw _ _ ih =>
    refine ⟨ih.1, fun j inside => ?_⟩
    obtain _ | _ | j := j
    · exact start
    · exact escaped
    · exact ih.2 j (Nat.lt_of_succ_lt_succ (Nat.lt_of_succ_lt_succ inside))

theorem Content.Spells.quote_not_mem (h : Spells content spelling stops)
    (other : ∀ value, content ≠ .string value) : '"' ∉ spelling := by
  cases h with
  | opening bracket | closing bracket => cases bracket <;> decide
  | colon | comma | nullWord | trueWord | falseWord => decide
  | number written value =>
    intro there
    exact absurd (Numeral.isMark_spelling written _ there) (by decide)
  | string => exact absurd rfl (other _)

theorem Content.Spells.foldl_step_string {value : Text}
    (h : Spells (.string value) spelling stops) :
    spelling.foldl Where.step .outside = .outside ∧ ∀ j c, spelling[j]? = some c →
      (spelling.take j).foldl Where.step .outside ≠ .outside ∨ c = '"' := by
  cases h with
  | @string literal reads =>
    obtain ⟨ends, goesOn⟩ := foldl_step_of_isRaw (Quoted.isRaw_of_read (reads []))
    refine ⟨ends, fun j c there => ?_⟩
    cases j with
    | zero => exact .inr (Option.some.inj there).symm
    | succ j =>
      have inside := (List.getElem?_eq_some_iff.mp there).1
      exact .inl (goesOn j (Nat.lt_of_succ_lt_succ inside))

theorem Content.Spells.foldl_step (h : Spells content spelling stops) :
    spelling.foldl Where.step .outside = .outside := by
  cases content with
  | string value => exact h.foldl_step_string.1
  | _ => exact foldl_step_of_quote_not_mem (h.quote_not_mem nofun)

theorem step_of_isBlank (blank : Lexeme.isBlank c) : Where.outside.step c = .outside := by
  rw [outside_step_eq_iff]
  rintro rfl
  exact absurd blank (by decide)

theorem Spelled.foldl_step (h : Spelled text contents) :
    text.foldl Where.step .outside = .outside := by
  induction h with
  | nil => rfl
  | blank blank _ ih => rw [List.foldl_cons, step_of_isBlank blank, ih]
  | content spells _ _ ih => rw [List.foldl_append, spells.foldl_step, ih]

theorem InString.behind (h : InString text contents i) (lead : Text) (first : List Content)
    (joins : ∀ front back before, text = front ++ back → Spelled front before →
      Spelled (lead ++ front) (first ++ before)) :
    InString (lead ++ text) (first ++ contents) (lead.length + i) := by
  obtain ⟨before, value, after, front, spelling, back, rfl, rfl, hf, spells, hb, start, stop⟩ := h
  refine ⟨first ++ before, value, after, lead ++ front, spelling, back,
    (List.append_assoc ..).symm, (List.append_assoc ..).symm, joins front _ before rfl hf, spells,
    hb, ?_, ?_⟩
  · rw [List.length_append]
    exact Nat.add_le_add_left start _
  · rw [List.length_append, Nat.add_assoc]
    exact Nat.add_lt_add_left stop _

theorem InString.within (h : InString text contents i) (there : text[i]? = some c) :
    (text.take i).foldl Where.step .outside ≠ .outside ∨ c = '"' := by
  obtain ⟨before, value, after, front, spelling, back, -, rfl, spelled, spells, -, start, stop⟩ := h
  obtain ⟨j, rfl⟩ := Nat.exists_eq_add_of_le start
  have inside : j < spelling.length := Nat.lt_of_add_lt_add_left stop
  rw [List.getElem?_append_right start, Nat.add_sub_cancel_left,
    List.getElem?_append_left inside] at there
  rw [List.take_length_add_append, List.foldl_append, spelled.foldl_step,
    List.take_append_of_le_length (Nat.le_of_lt inside)]
  exact spells.foldl_step_string.2 j c there

theorem Content.Spells.exists_string_of_within (h : Spells content spelling stops)
    (there : spelling[i]? = some c)
    (within : (spelling.take i).foldl Where.step .outside ≠ .outside ∨ c = '"') :
    ∃ value, content = .string value ∧ Spells (.string value) spelling fun _ => false := by
  cases content with
  | string value =>
    cases h with
    | string reads => exact ⟨_, rfl, .string reads⟩
  | _ =>
    have plain := h.quote_not_mem nofun
    rcases within with state | rfl
    · refine absurd (foldl_step_of_quote_not_mem fun quote => ?_) state
      exact plain (List.mem_of_mem_take quote)
    · exact absurd (List.mem_of_getElem? there) plain

theorem Spelled.inString_of_within (h : Spelled text contents) (there : text[i]? = some c)
    (within : (text.take i).foldl Where.step .outside ≠ .outside ∨ c = '"') :
    InString text contents i := by
  -- Every blank and every content leads back outside, so behind it the state begins anew.
  induction h generalizing i with
  | nil => cases there
  | @blank d text contents blank spelled ih =>
    cases i with
    | zero =>
      obtain rfl : d = c := Option.some.inj there
      rcases within with state | rfl
      · exact absurd rfl state
      · exact absurd blank (by decide)
    | succ i =>
      rw [List.take_succ_cons, List.foldl_cons, step_of_isBlank blank] at within
      rw [Nat.add_comm]
      exact (ih there within).behind [d] [] fun _ _ _ _ hf => .blank blank hf
  | @content content spelling rest stops contents spells avoids spelled ih =>
    by_cases inside : i < spelling.length
    · rw [List.getElem?_append_left inside] at there
      rw [List.take_append_of_le_length (Nat.le_of_lt inside)] at within
      obtain ⟨value, rfl, string⟩ := spells.exists_string_of_within there within
      refine ⟨[], value, contents, [], spelling, rest, rfl, rfl, .nil, string, spelled, ?_, ?_⟩
      · exact Nat.zero_le i
      · rwa [List.length_nil, Nat.zero_add]
    · obtain ⟨j, rfl⟩ := Nat.exists_eq_add_of_le (Nat.not_lt.mp inside)
      rw [List.getElem?_append_right (Nat.not_lt.mp inside), Nat.add_sub_cancel_left] at there
      rw [List.take_length_add_append, List.foldl_append, spells.foldl_step] at within
      refine (ih there within).behind spelling [content] fun front back before cut hf => ?_
      subst cut
      exact .content spells avoids.of_append hf

/-- The strings of a text are what the states of a reader tell to be literals. -/
theorem Spelled.inString_iff (h : Spelled text contents) (there : text[i]? = some c) :
    InString text contents i ↔ (text.take i).foldl Where.step .outside ≠ .outside ∨ c = '"' :=
  ⟨fun string => string.within there, h.inString_of_within there⟩

theorem Spelled.exists_of_mem_pieces (h : Spelled text contents) {piece : Text}
    (there : piece ∈ pieces text) : ∃ some, Spelled piece some := by
  induction size : text.length using Nat.strong_induction_on generalizing text contents with
  | _ size ih =>
    by_cases newline : '\n' ∈ text
    · obtain ⟨front, back, rfl, line⟩ := List.eq_append_cons_of_mem newline
      obtain ⟨left, right, rfl, spelled, later⟩ := h.split_newline
      rw [pieces_append_newline line, List.mem_cons] at there
      rcases there with rfl | there
      · exact ⟨left, spelled⟩
      · refine ih back.length ?_ later there rfl
        rw [← size, List.length_append, List.length_cons]
        omega
    · rw [pieces_of_newline_not_mem newline, List.mem_singleton] at there
      exact ⟨contents, there ▸ h⟩

theorem foldl_step_dropReturn {piece : Text} (ends : piece.foldl Where.step .outside = .outside) :
    (dropReturn piece).foldl Where.step .outside = .outside := by
  rw [← dropReturn_append_lost piece, List.foldl_append] at ends
  split at ends
  · generalize (dropReturn piece).foldl Where.step .outside = state at ends
    cases state with
    | outside => rfl
    | inside => cases ends
    | escaped => cases ends
  · exact ends

theorem Spelled.linesEnd (h : Spelled text contents) :
    LinesEnd (pieces text) ∧ LinesEnd (splitLines text) := by
  have ends : LinesEnd (pieces text) := fun piece hp => by
    obtain ⟨_, spelled⟩ := h.exists_of_mem_pieces hp
    exact spelled.foldl_step
  refine ⟨ends, fun line hl => ?_⟩
  obtain ⟨piece, hp, rfl⟩ := List.mem_map.mp hl
  exact foldl_step_dropReturn (ends piece hp)

theorem Significant.isQuoted_iff {p : Position} (there : charAt? lines p = some c) :
    IsQuoted lines p ↔
      (Fragment.before p lines).flatten.foldl Where.step .outside ≠ .outside ∨ c = '"' := by
  have told : IsQuoted lines p ↔
      (Fragment.before p lines).flatten.foldl Where.step .outside ≠ .outside ∨
        ((Fragment.before p lines).flatten.foldl Where.step .outside).step c ≠ .outside := by
    simp [IsQuoted, there]
  rw [told]
  by_cases outside : (Fragment.before p lines).flatten.foldl Where.step .outside = .outside
  · rw [outside]
    exact or_congr_right outside_step_eq_iff.not_left
  · simp [outside]

/-- What counts is what is in a literal, and what is not white space. -/
theorem Significant.mem_marks_iff_isQuoted {p : Position} (there : charAt? lines p = some c) :
    ⟨p.line, p.column + 1⟩ ∈ marks lines ↔ IsQuoted lines p ∨ Unicode.isWhiteSpace c = false := by
  have mark : ⟨p.line, p.column + 1⟩ ∈ marks lines ↔ IsSignificant .outside lines p := by
    rw [mem_marks_iff]
    constructor
    · rintro ⟨q, significant, same⟩
      obtain ⟨line, column⟩ := Position.mk.inj same
      have here : p = q := congrArg₂ Position.mk line (Nat.succ.inj column)
      rwa [here]
    · intro significant
      exact ⟨p, significant, rfl⟩
  have counts : IsSignificant .outside lines p ↔
      ((Fragment.before p lines).flatten.foldl Where.step .outside).counts c := by
    simp [IsSignificant, there]
  rw [mark, counts, isQuoted_iff there]
  have solid : c = '"' → Unicode.isWhiteSpace c = false := by
    rintro rfl
    decide
  by_cases outside : (Fragment.before p lines).flatten.foldl Where.step .outside = .outside
  · simpa [outside, Where.counts] using solid
  · simp [outside, Where.counts]

theorem exists_take_of_charAt?_pieces {p : Position} (there : charAt? (pieces text) p = some c) :
    ∃ i, text[i]? = some c ∧ text.take i = joinLines (Fragment.before p (pieces text)) ∧
      Position.origin.advance (text.take i) = p := by
  let b : Buffer := ⟨pieces text, pieces_ne_nil text⟩
  have unbroken : Unbroken b.lines := fun _ => newline_not_mem_of_mem_pieces
  have inside : b.Has p := (Buffer.has_of_charAt? there).1
  have whole : b.front p ++ b.back p = text :=
    (Buffer.front_append_back unbroken inside.1).trans (joinLines_pieces text)
  have behind : ∃ rest, b.back p = c :: rest := by
    obtain ⟨column, same⟩ := List.getElem?_eq_some_iff.mp there
    rw [Buffer.back, Fragment.after, List.drop_eq_getElem_cons column, same]
    exact ⟨_, joinLines_char_cons c _ _⟩
  obtain ⟨rest, behind⟩ := behind
  have front : text.take (b.front p).length = b.front p := by
    rw [← whole, List.take_left]
  refine ⟨(b.front p).length, ?_, front, ?_⟩
  · rw [← whole, List.getElem?_append_right (Nat.le_refl _), Nat.sub_self, behind]
    rfl
  · rw [front]
    exact Buffer.advance_front unbroken inside.1 inside.2

/-- A carriage return that a line loses stands behind all its characters. -/
theorem charAt?_pieces_of_splitLines {p : Position}
    (there : charAt? (splitLines text) p = some c) :
    charAt? (pieces text) p = some c ∧
      ((splitLines text).getD p.line []).take p.column =
        ((pieces text).getD p.line []).take p.column := by
  have line : (splitLines text).getD p.line [] = dropReturn ((pieces text).getD p.line []) := by
    rw [splitLines, List.getD_eq_getElem?_getD, List.getElem?_map, List.getD_eq_getElem?_getD]
    exact Option.getD_map dropReturn [] _
  rw [charAt?, line] at there
  rw [charAt?, line]
  generalize (pieces text).getD p.line [] = piece at there
  have inside := (List.getElem?_eq_some_iff.mp there).1
  have lost := dropReturn_append_lost piece
  constructor
  · rw [← lost, List.getElem?_append_left inside, there]
  · conv_rhs => rw [← lost, List.take_append_of_le_length (Nat.le_of_lt inside)]

/-- In front of a character the state is told by its own line alone, in the text and in the lines
that it is cut into. -/
theorem Spelled.foldl_step_before (h : Spelled text contents)
    (cut : lines = splitLines text ∨ lines = pieces text) {p : Position}
    (there : charAt? lines p = some c) :
    let state := ((lines.getD p.line []).take p.column).foldl Where.step .outside
    (Fragment.before p lines).flatten.foldl Where.step .outside = state ∧
      ∃ i, text[i]? = some c ∧ Position.origin.advance (text.take i) = p ∧
        (text.take i).foldl Where.step .outside = state := by
  intro state
  obtain ⟨ofPieces, ofLines⟩ := h.linesEnd
  have ends : LinesEnd lines := by
    rcases cut with rfl | rfl
    · exact ofLines
    · exact ofPieces
  obtain ⟨piece, same⟩ : charAt? (pieces text) p = some c ∧
      (lines.getD p.line []).take p.column = ((pieces text).getD p.line []).take p.column := by
    rcases cut with rfl | rfl
    · exact charAt?_pieces_of_splitLines there
    · exact ⟨there, rfl⟩
  have first {lines : List Line} (ends : LinesEnd lines) : LinesEnd (lines.take p.line) :=
    fun line hl => ends line (List.mem_of_mem_take hl)
  constructor
  · rw [Fragment.before, List.flatten_append, List.foldl_append, (first ends).foldl_flatten,
      List.flatten_singleton]
  · obtain ⟨i, character, front, place⟩ := exists_take_of_charAt?_pieces piece
    refine ⟨i, character, place, ?_⟩
    rw [front, Fragment.before, (first ofPieces).foldl_joinLines, ← same]

/-- In a readable text the tokens of a line and a reader that goes over all lines take the same
characters to be in literals: those of the strings of the features. -/
theorem string_trackers_agree {features : List Json} (read : parseFeatures text = .ok features) :
    ∃ raws : List Json, Spelled text (listed raws) ∧ raws.map Json.merged = features ∧
      ∀ lines, lines = splitLines text ∨ lines = pieces text →
        ∀ p c, charAt? lines p = some c →
          ∃ i, text[i]? = some c ∧ Position.origin.advance (text.take i) = p ∧
            (InLiteral (ofLine (lines.getD p.line [])) p.column ↔
              InString text (listed raws) i) ∧
            (IsQuoted lines p ↔ InString text (listed raws) i) ∧
            (⟨p.line, p.column + 1⟩ ∈ marks lines ↔
              InString text (listed raws) i ∨ Unicode.isWhiteSpace c = false) := by
  obtain ⟨raws, spelled, -, merged⟩ := parseFeatures_eq_ok_iff.mp read
  refine ⟨raws, spelled, merged, fun lines cut p c there => ?_⟩
  obtain ⟨carried, i, character, place, state⟩ := spelled.foldl_step_before cut there
  have string := spelled.inString_iff character
  have literal := inLiteral_ofLine_iff there
  have quoted := isQuoted_iff there
  rw [state] at string
  rw [carried] at quoted
  refine ⟨i, character, place, literal.trans string.symm, quoted.trans string.symm, ?_⟩
  rw [mem_marks_iff_isQuoted there, quoted.trans string.symm]

def bracketStrings : Text :=
  ['"', ']', '\\', '"', '\\', '\\', '"', ',', '\r', '\n', '"', '{', '"']

theorem string_trackers_agree_bracketStrings :
    parseFeatures bracketStrings = .ok [.text [']', '"', '\\'], .text ['{']] ∧
      splitLines bracketStrings = [bracketStrings.take 8, bracketStrings.drop 10] ∧
      (∃ raws, Spelled bracketStrings (listed raws) ∧
        ∃ i, bracketStrings[i]? = some '{' ∧ InString bracketStrings (listed raws) i) ∧
      IsQuoted (splitLines bracketStrings) ⟨1, 1⟩ ∧
      ¬IsQuoted (splitLines bracketStrings) ⟨0, 7⟩ := by
  have spelled : Spelled bracketStrings (listed [.text [']', '"', '\\'], .text ['{']]) := by
    have last := Spelled.quote ['{']
    have second := (Spelled.comma (.blank (c := '\r') rfl (.blank (c := '\n') rfl last)))
    exact (Spelled.quote [']', '"', '\\']).append second rfl
  have read : parseFeatures bracketStrings = .ok [.text [']', '"', '\\'], .text ['{']] :=
    parseFeatures_eq_ok_iff.mpr ⟨_, spelled, by decide, rfl⟩
  obtain ⟨raws, reads, -, agree⟩ := string_trackers_agree read
  obtain ⟨i, there, -, literal, quoted, -⟩ := agree _ (.inl rfl) ⟨1, 1⟩ '{' (by decide)
  obtain ⟨_, -, -, other, plain, -⟩ := agree _ (.inl rfl) ⟨0, 7⟩ ',' (by decide)
  have inside : InLiteral (ofLine ((splitLines bracketStrings).getD 1 [])) 1 :=
    ⟨['{'], 0, by decide, by decide, by decide⟩
  have between : ¬InLiteral (ofLine ((splitLines bracketStrings).getD 0 [])) 7 := by
    have tokens : ofLine ((splitLines bracketStrings).getD 0 []) =
        [.quoted [']', '\\', '"', '\\', '\\'] 0, .comma] := by decide
    rw [tokens]
    rintro ⟨raw, start, member, -, last⟩
    obtain ⟨rfl, rfl⟩ : raw = [']', '\\', '"', '\\', '\\'] ∧ start = 0 := by simpa using member
    exact absurd last (by decide)
  have string := literal.mp inside
  exact ⟨read, by decide, ⟨raws, reads, i, there, string⟩, quoted.mpr string,
    fun quoted => between (other.mpr (plain.mp quoted))⟩

end FeatureText
