import FeatureText.Json.Lexeme
import FeatureText.Proofs.Json.Numeral
import FeatureText.Proofs.Json.Quoted

/-! How contents are spelled. A text that holds nothing unreadable is its contents with blanks
between them, and any part of such a text that ends behind a content can be read on its own. -/
namespace FeatureText

def Numeral.isPart (c : Char) : Bool := c.isDigit || c == '.' || c == 'e' || c == 'E'

theorem Numeral.isPart_of_goesOn {n : Numeral} {c : Char} (h : n.goesOn c = true) :
    isPart c = true := by
  simp only [goesOn, Bool.or_eq_true, Bool.and_eq_true] at h
  simp only [isPart, Bool.or_eq_true]
  tauto

def Numeral.isMark (c : Char) : Bool := isPart c || c == '-' || c == '+'

theorem Numeral.isMark_of_isDigit {c : Char} (h : c.isDigit) : isMark c := by
  simp [isMark, isPart, h]

theorem Numeral.isMark_spelling {n : Numeral} (written : n.IsWritten) :
    ∀ c ∈ n.spelling, isMark c := by
  have digits {text : Text} (all : ∀ c ∈ text, c.isDigit) : ∀ c ∈ text, isMark c := fun c hc =>
    isMark_of_isDigit (all c hc)
  have sign : ∀ c ∈ signText n.negative, isMark c := by
    cases n.negative <;> exact List.all_eq_true.mp rfl
  have fraction : ∀ c ∈ pointed n.fraction, isMark c := by
    have all := digits written.fraction
    cases hf : n.fraction with
    | nil => simp [pointed]
    | cons d rest =>
      rw [hf] at all
      exact List.forall_mem_cons.mpr ⟨rfl, all⟩
  have exponent : ∀ c ∈ (n.exponent.map Exponent.spelling).getD [], isMark c := by
    cases he : n.exponent with
    | none => simp
    | some e =>
      obtain ⟨letter, sign, all⟩ := written.exponent e he
      have tail : ∀ c ∈ e.sign.toList ++ e.digits, isMark c := by
        refine List.forall_mem_append.mpr ⟨?_, digits all.2⟩
        rcases sign with sign | sign | sign <;> rw [sign] <;> exact List.all_eq_true.mp rfl
      refine List.forall_mem_cons.mpr ⟨?_, tail⟩
      rcases letter with letter | letter <;> rw [letter] <;> rfl
  simp only [spelling, List.forall_mem_append]
  exact ⟨⟨⟨sign, digits written.whole.2⟩, fraction⟩, exponent⟩

namespace Content

def isReadable : Content → Bool
  | .unreadable .. | .stray => false
  | _ => true

/-- A content, its spelling, and the characters that would be read as more of it. -/
inductive Spells : Content → Text → (Char → Bool) → Prop where
  | opening (bracket : Bracket) : Spells (.opening bracket) [bracket.opening] fun _ => false
  | closing (bracket : Bracket) : Spells (.closing bracket) [bracket.closing] fun _ => false
  | colon : Spells .colon [':'] fun _ => false
  | comma : Spells .comma [','] fun _ => false
  | nullWord : Spells (.scalar .null) ['n', 'u', 'l', 'l'] fun _ => false
  | trueWord : Spells (.scalar (.bool true)) ['t', 'r', 'u', 'e'] fun _ => false
  | falseWord : Spells (.scalar (.bool false)) ['f', 'a', 'l', 's', 'e'] fun _ => false
  | number {numeral : Numeral} {value : Number} (written : numeral.IsWritten)
      (h : numeral.value = .ok value) :
      Spells (.scalar (.number value)) numeral.spelling numeral.goesOn
  | string {literal : Quoted.Literal}
      (h : ∀ other, Quoted.read true none 1 (literal.raw ++ other) = .ok (literal, other)) :
      Spells (.string literal.value) ('"' :: literal.raw) fun _ => false

theorem Spells.isPart {content : Content} {spelling : Text} {stops : Char → Bool}
    (h : Spells content spelling stops) {c : Char} (hc : stops c = true) :
    Numeral.isPart c = true := by
  cases h <;> first | exact Numeral.isPart_of_goesOn hc | cases hc

end Content

namespace Lexeme

open Content

theorem avoids_none (text : Text) : text.Avoids fun _ => false := by
  cases text <;> rfl

theorem spells_readWholeWord {value : Json} {letter : Char} {word text : Text}
    (spells : Spells (.scalar value) (letter :: word) fun _ => false)
    (h : (readWholeWord value letter word text).content.isReadable) :
    Spells (readWholeWord value letter word text).content
      (readWholeWord value letter word text).spelling fun _ => false := by
  unfold readWholeWord at h ⊢
  split
  · exact spells
  · next hw => simp [hw, spent, isReadable] at h

theorem spells_readNumber {text : Text} (h : (readNumber text).content.isReadable) :
    ∃ stops, Spells (readNumber text).content (readNumber text).spelling stops ∧
      (readNumber text).rest.Avoids stops := by
  unfold readNumber at h ⊢
  cases hread : Numeral.read text with
  | error fault => simp [hread, spent, isReadable] at h
  | ok read =>
    obtain ⟨numeral, rest⟩ := read
    cases hvalue : numeral.value with
    | error fault => simp [hread, hvalue, isReadable] at h
    | ok value =>
      obtain ⟨written, stop⟩ := Numeral.isWritten_of_read hread
      simp only [hvalue]
      exact ⟨_, .number written hvalue, stop⟩

theorem spells_readString {text : Text} (h : (readString text).content.isReadable) :
    Spells (readString text).content (readString text).spelling fun _ => false := by
  unfold readString at h ⊢
  cases hread : Quoted.read true none 1 text with
  | ok read => exact .string fun other => Quoted.read_raw_append hread 1 other
  | error fault =>
    simp only [hread] at h
    split at h <;> simp [spent, isReadable] at h

/-- What is readable is spelled, and what follows is not more of it. -/
theorem spells_readAt {c : Char} {rest : Text} (h : (readAt c rest).content.isReadable) :
    ∃ stops, Spells (readAt c rest).content (readAt c rest).spelling stops ∧
      (readAt c rest).rest.Avoids stops := by
  revert h
  unfold readAt
  repeat' split
  all_goals intro h
  · exact ⟨_, spells_readString h, avoids_none _⟩
  · next hc => exact ⟨_, hc ▸ .colon, avoids_none _⟩
  · next hc => exact ⟨_, hc ▸ .comma, avoids_none _⟩
  · next hc => exact ⟨_, spells_readWholeWord (hc ▸ .nullWord) h, avoids_none _⟩
  · next hc => exact ⟨_, spells_readWholeWord (hc ▸ .trueWord) h, avoids_none _⟩
  · next hc => exact ⟨_, spells_readWholeWord (hc ▸ .falseWord) h, avoids_none _⟩
  · exact spells_readNumber h
  · next hc => exact ⟨_, Bracket.eq_opening_of_ofOpening? hc ▸ .opening _, avoids_none _⟩
  · next hc => exact ⟨_, Bracket.eq_closing_of_ofClosing? hc ▸ .closing _, avoids_none _⟩
  · simp [isReadable] at h

theorem isDigit_or_minus_of_isWritten {n : Numeral} (written : n.IsWritten) {c : Char} {tail : Text}
    (h : n.spelling = c :: tail) : c = '-' ∨ c.isDigit := by
  obtain ⟨some, all⟩ := written.whole
  cases hw : n.whole with
  | nil => exact absurd hw some
  | cons d whole =>
    have hd : d.isDigit := all d (by simp [hw])
    cases hn : n.negative with
    | true =>
      simp only [Numeral.spelling, Numeral.signText, hn, if_true, List.cons_append,
        List.cons.injEq] at h
      exact .inl h.1.symm
    | false =>
      simp only [Numeral.spelling, Numeral.signText, hn, hw, List.nil_append, List.cons_append,
        List.cons.injEq, reduceIte, Bool.false_eq_true] at h
      exact .inr (h.1 ▸ hd)

theorem readAt_of_number {c : Char} {rest : Text} (h : c = '-' ∨ c.isDigit) :
    readAt c rest = readNumber (c :: rest) := by
  have none : c ≠ '"' ∧ c ≠ ':' ∧ c ≠ ',' ∧ c ≠ 'n' ∧ c ≠ 't' ∧ c ≠ 'f' := by
    refine ⟨?_, ?_, ?_, ?_, ?_, ?_⟩ <;> (rintro rfl; revert h; decide)
  simp [readAt, none, h]

theorem readAt_of_spells {content : Content} {c : Char} {tail other : Text} {stops : Char → Bool}
    (h : Spells content (c :: tail) stops) (avoids : other.Avoids stops) :
    readAt c (tail ++ other) = ⟨content, c :: tail, other⟩ := by
  generalize hs : c :: tail = spelling at h
  cases h with
  | opening bracket =>
    obtain ⟨rfl, rfl⟩ := List.cons.inj hs
    cases bracket <;> rfl
  | closing bracket =>
    obtain ⟨rfl, rfl⟩ := List.cons.inj hs
    cases bracket <;> rfl
  | colon | comma =>
    obtain ⟨rfl, rfl⟩ := List.cons.inj hs
    rfl
  | nullWord | trueWord | falseWord =>
    obtain ⟨rfl, rfl⟩ := List.cons.inj hs
    simp [readAt, readWholeWord, readWord]
  | @number numeral value written h =>
    have hc := isDigit_or_minus_of_isWritten written hs.symm
    have hr : c :: (tail ++ other) = numeral.spelling ++ other := by simp [← hs]
    rw [readAt_of_number hc, hr]
    simp [readNumber, Numeral.read_spelling_append written avoids, h]
  | @string literal h =>
    obtain ⟨rfl, rfl⟩ := List.cons.inj hs
    simp [readAt, readString, h other]

end Lexeme

end FeatureText
