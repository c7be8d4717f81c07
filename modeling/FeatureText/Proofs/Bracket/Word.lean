import FeatureText.Proofs.Outline.Refold
import Mathlib.Algebra.GroupWithZero.Nat

/-! Words of brackets that match. A stack of the brackets that are open accepts exactly the words of
the grammar, and no count of brackets refuses what it accepts. -/
namespace FeatureText

namespace Bracket

/-- A word is empty, or a word in brackets of one kind with a word behind them. -/
inductive Word : List Side → Prop where
  | empty : Word []
  | bracketed (bracket : Bracket) {inner rest : List Side} : Word inner → Word rest →
      Word (.opening bracket :: (inner ++ .closing bracket :: rest))

def sides (lines : List Line) : List Side := (lines.flatMap Token.ofLine).filterMap Token.side?

variable {stack : List Bracket} {top bracket : Bracket} {word : List Side}

theorem word_opening_iff : Word (.opening bracket :: word) ↔
    ∃ inner rest, word = inner ++ .closing bracket :: rest ∧ Word inner ∧ Word rest := by
  constructor
  · intro h
    cases h with
    | bracketed _ hi hr => exact ⟨_, _, rfl, hi, hr⟩
  · rintro ⟨inner, rest, rfl, hi, hr⟩
    exact .bracketed bracket hi hr

theorem Word.nested {α : Type} {side : α → Option Side} {marks : List α}
    (h : Word (marks.filterMap side)) : Nested side marks := by
  have plain {word : List Side} (h : Word word) : Nested some word := by
    induction h with
    | empty => exact .nil
    | bracketed bracket _ _ hi hr => exact .nest bracket rfl rfl hi hr
  apply (plain h).of_filterMap_eq
  rw [List.filterMap_some]

/-- What closes some open brackets, the last opened first, with words in front of, between and
behind those that close them. -/
def ClosesAll : List Bracket → List Side → Prop
  | [], word => Word word
  | top :: stack, word =>
    ∃ inner rest, word = inner ++ .closing top :: rest ∧ Word inner ∧ ClosesAll stack rest

theorem closesAll_nil_iff : ClosesAll stack [] ↔ stack = [] := by
  cases stack with
  | nil => simp [ClosesAll, Word.empty]
  | cons top stack => simp [ClosesAll]

theorem closesAll_opening_iff :
    ClosesAll stack (.opening bracket :: word) ↔ ClosesAll (bracket :: stack) word := by
  cases stack with
  | nil => exact word_opening_iff
  | cons top stack =>
    constructor
    · rintro ⟨front, rest, eq, hf, hr⟩
      cases hf with
      | empty => cases eq
      | bracketed _ hi hb =>
        cases eq
        exact ⟨_, _, by simp, hi, _, _, rfl, hb, hr⟩
    · rintro ⟨inner, _, rfl, hi, between, rest, rfl, hb, hr⟩
      exact ⟨_, rest, by simp, .bracketed bracket hi hb, hr⟩

theorem closesAll_closing_iff :
    ClosesAll (top :: stack) (.closing bracket :: word) ↔ top = bracket ∧ ClosesAll stack word := by
  constructor
  · rintro ⟨inner, rest, eq, hi, hr⟩
    cases hi with
    | empty =>
      cases eq
      exact ⟨rfl, hr⟩
    | bracketed => cases eq
  · rintro ⟨rfl, h⟩
    exact ⟨[], word, rfl, .empty, h⟩

theorem not_closesAll_closing : ¬ClosesAll [] (.closing bracket :: word) := nofun

theorem matched_iff_closesAll (stack : List Bracket) (tokens : List Token) :
    matched stack tokens ↔ ClosesAll stack (tokens.filterMap Token.side?) := by
  induction tokens generalizing stack with
  | nil =>
    rw [List.filterMap_nil, closesAll_nil_iff, matched]
    exact List.isEmpty_iff
  | cons token tokens ih =>
    cases token with
    | opening bracket column =>
      rw [matched, ih, ← closesAll_opening_iff]
      rfl
    | closing bracket column =>
      cases stack with
      | nil => exact iff_of_false Bool.false_ne_true not_closesAll_closing
      | cons top stack =>
        rw [matched, Bool.and_eq_true, beq_iff_eq, ih, ← closesAll_closing_iff]
        rfl
    | quoted | colon | comma =>
      cases stack <;> exact ih _

theorem filterMap_placed (lines : List Line) :
    (Token.placed lines).filterMap Token.placedSide? = sides lines := by
  rw [sides, Token.placed, ← Token.map_snd_placedFrom 0, List.filterMap_map]
  rfl

theorem isBalanced_iff_word (lines : List Line) : isBalanced lines ↔ Word (sides lines) :=
  matched_iff_closesAll [] _

theorem Word.count_eq (h : Word word) (bracket : Bracket) :
    word.count (.opening bracket) = word.count (.closing bracket) := by
  induction h with
  | empty => rfl
  | bracketed other _ _ hi hr =>
    simp only [List.count_cons, List.count_append, hi, hr]
    cases other <;> cases bracket <;> simp <;> omega

def isEven (bracket : Bracket) (lines : List Line) : Bool :=
  (lines.map fun line => (count bracket line).1).sum ==
    (lines.map fun line => (count bracket line).2).sum

theorem count_sides {side : Side} {p : Token → Bool}
    (h : ∀ token, p token = (token.side? == some side)) (lines : List Line) :
    (sides lines).count side = (lines.map fun line => (Token.ofLine line).countP p).sum := by
  rw [sides, List.count_filterMap, List.countP_flatMap, ← funext h]
  rfl

theorem opens_eq (bracket : Bracket) (token : Token) :
    token.opens bracket = (token.side? == some (.opening bracket)) := by
  cases token <;> simp [Token.opens, Token.side?, Bool.beq_eq_decide_eq]

theorem closes_eq (bracket : Bracket) (token : Token) :
    token.closes bracket = (token.side? == some (.closing bracket)) := by
  cases token <;> simp [Token.closes, Token.side?, Bool.beq_eq_decide_eq]

theorem Word.isEven {lines : List Line} (h : Word (sides lines)) (bracket : Bracket) :
    isEven bracket lines := by
  have same := h.count_eq bracket
  rw [count_sides (opens_eq bracket), count_sides (closes_eq bracket)] at same
  exact beq_iff_eq.mpr same

end Bracket

open FeatureText.Bracket

/-- A rebuild reports what the stack says, counting both kinds in front of it refuses nothing more,
and the stack accepts the words of the grammar. -/
theorem Outline.notions_of_balance_agree (o : Outline) (lines : List Line) :
    (o.rebuild lines).2.balanced = isBalanced lines ∧
    (o.rebuild lines).1.balanced = isBalanced lines ∧
    isBalanced lines = (isEven .brace lines && isEven .square lines &&
      matched [] (lines.flatMap Token.ofLine)) ∧
    (isBalanced lines ↔ Word (sides lines)) := by
  have grammar := isBalanced_iff_word lines
  refine ⟨?_, o.balanced_rebuild lines, ?_, grammar⟩
  · rw [← o.balanced_rebuild lines, rebuild]
    split <;> rfl
  · change _ = (_ && isBalanced lines)
    cases balanced : isBalanced lines with
    | false => rw [Bool.and_false]
    | true =>
      have word := grammar.mp balanced
      rw [word.isEven, word.isEven]
      rfl

end FeatureText
