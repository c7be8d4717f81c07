import FeatureText.Proofs.Bracket.Literal
import FeatureText.Proofs.View.Overwritten

/-! Booleans on a line, against the string literals of the tokenizer. A key is looked for between
any two quotes, also between one that closes a literal and one that opens the next; the word behind
such a key is inside of that next literal. -/
namespace FeatureText

namespace Inline

open Significant Token

variable {content : Line} {found : Found Bool} {key label text : Text} {state : Where}

/-- What may be part of a key neither opens nor closes a literal. -/
theorem foldl_step_plain (plain : ∀ c ∈ text, isKeyChar c) (settled : state ≠ .escaped) :
    text.foldl Where.step state = state := by
  induction text with
  | nil => rfl
  | cons c text ih =>
    obtain ⟨first, rest⟩ := List.forall_mem_cons.mp plain
    have other : c ≠ '"' ∧ c ≠ '\\' := by simpa [isKeyChar] using first
    have same : state.step c = state := by
      cases state with
      | outside => exact if_neg other.1
      | inside => simp [Where.step, other]
      | escaped => exact absurd rfl settled
    rw [List.foldl_cons, same, ih rest]

theorem isKeyChar_of_isWhiteSpace {c : Char} (h : Unicode.isWhiteSpace c) : isKeyChar c :=
  isKeyChar_of_class (by decide) (by decide) h

/-- Behind a label a line is in a literal exactly if the first quote of the label closes one. -/
theorem foldl_step_label (labelled : IsLabel key label) (state : Where) :
    label.foldl Where.step state = if state = .inside then .inside else .outside := by
  obtain ⟨before, after, blankBefore, blankAfter, rfl⟩ := labelled.spelled
  have behind : ∀ c ∈ before ++ ':' :: after, isKeyChar c := by
    intro c hc
    rcases List.mem_append.mp hc with hc | hc
    · exact isKeyChar_of_isWhiteSpace (blankBefore c hc)
    · rcases List.mem_cons.mp hc with rfl | hc
      · rfl
      · exact isKeyChar_of_isWhiteSpace (blankAfter c hc)
  have first : state.step '"' ≠ .escaped := by cases state <;> decide
  have second : (state.step '"').step '"' ≠ .escaped := by cases state <;> decide
  rw [List.foldl_cons, List.foldl_append, foldl_step_plain labelled.plain first, List.foldl_cons,
    foldl_step_plain behind second]
  cases state <;> rfl

theorem isKeyChar_of_mem_word {value : Bool} : ∀ c ∈ word value, isKeyChar c := by
  cases value <;> simp [word, isKeyChar]

/-- A boolean is outside of all literals unless the quote in front of its key closes a literal; then
it is inside of one as a whole. -/
theorem inLiteral_iff_label_crosses (h : found ∈ booleans content) :
    ∃ front label back, booleanStyle.Stands front label found back content ∧
      ∀ column, found.start ≤ column → column < found.stop →
        (InLiteral (ofLine content) column ↔ EndsLiteral (ofLine content) front.length) := by
  rw [← Form.find_booleanForm] at h
  obtain ⟨front, label, back, stands⟩ := Form.exists_stands_of_mem h
  refine ⟨front, label, back, stands, fun column first last => ?_⟩
  have start : found.start = (front ++ label).length := by
    rw [stands.start]
    exact congrArg List.length (List.append_nil _)
  have content_eq : content = front ++ label ++ (word found.value ++ back) := by
    simpa [booleanForm, booleanStyle] using stands.line
  obtain ⟨i, rfl⟩ := Nat.exists_eq_add_of_le first
  have inside : i < (word found.value).length := by
    have stop : found.stop = found.start + (word found.value).length := stands.stop
    omega
  have here : content[found.start + i]? = some (word found.value)[i] := by
    rw [content_eq, start, List.getElem?_append_right (Nat.le_add_right ..),
      Nat.add_sub_cancel_left, List.getElem?_append_left inside, List.getElem?_eq_getElem inside]
  have plain : (word found.value)[i] ≠ '"' := by
    intro quote
    have char := isKeyChar_of_mem_word _ (List.getElem_mem inside)
    rw [quote] at char
    exact Bool.noConfusion char
  have opens : content[front.length]? = some '"' := by
    obtain ⟨_, _, -, -, spelled⟩ := stands.labelled.spelled
    rw [content_eq, spelled]
    simp
  have state : (content.take (found.start + i)).foldl Where.step .outside =
      if front.foldl Where.step .outside = .inside then .inside else .outside := by
    rw [content_eq, start, List.take_length_add_append, List.foldl_append, List.foldl_append,
      foldl_step_label stands.labelled, List.take_append_of_le_length (Nat.le_of_lt inside)]
    refine foldl_step_plain (fun c hc => isKeyChar_of_mem_word c (List.mem_of_mem_take hc)) ?_
    split <;> decide
  have front_eq : content.take front.length = front := by
    rw [content_eq, List.append_assoc, List.take_left]
  rw [inLiteral_ofLine_iff here, endsLiteral_ofLine_iff opens, front_eq, state]
  by_cases within : front.foldl Where.step .outside = .inside
  · simp [within]
  · simp [within, plain]

def stringsAndFlag : Line :=
  ['"', 'a', '"', ',', '"', ':', ' ', 't', 'r', 'u', 'e', '"', ',', '"', 'b', '"', ':', 't', 'r',
   'u', 'e']

theorem inLiteral_iff_label_crosses_stringsAndFlag :
    let found : Found Bool := ⟨['b'], true, 17, 21⟩
    found ∈ booleans stringsAndFlag ∧ ∃ front label back,
      booleanStyle.Stands front label found back stringsAndFlag ∧
        (InLiteral (ofLine stringsAndFlag) 17 ↔
          EndsLiteral (ofLine stringsAndFlag) front.length) := by
  intro found
  have there : found ∈ booleans stringsAndFlag := by decide
  obtain ⟨front, label, back, stands, told⟩ := inLiteral_iff_label_crosses there
  exact ⟨there, front, label, back, stands, told 17 (by decide) (by decide)⟩

/-- Of two strings, the first ends and the second begins with a quote of what is taken for a key. -/
theorem boolean_in_string :
    let content : Line := ['"', 'a', '"', ',', ' ', '"', ':', ' ', 't', 'r', 'u', 'e', '"']
    let found : Found Bool := ⟨[',', ' '], true, 8, 12⟩
    booleans content = [found] ∧
      ofLine content = [quoted ['a'] 0, comma, quoted [':', ' ', 't', 'r', 'u', 'e'] 5] ∧
      ∀ column, found.start ≤ column → column < found.stop → InLiteral (ofLine content) column := by
  intro content found
  have tokens : ofLine content =
      [quoted ['a'] 0, comma, quoted [':', ' ', 't', 'r', 'u', 'e'] 5] := by decide
  refine ⟨by decide, tokens, fun column first last => ?_⟩
  rw [tokens]
  refine ⟨[':', ' ', 't', 'r', 'u', 'e'], 5, by simp, ?_, ?_⟩
  · exact Nat.le_trans (by decide) first
  · exact Nat.le_trans (Nat.le_of_lt last) (by decide)

end Inline

end FeatureText
