import FeatureText.Proofs.Bracket.Word
import FeatureText.Proofs.Feature.Range

/-! Features of lines whose brackets do not match. The search for objects counts the brackets that
are open and does not ask for their kinds, so it takes brackets that only mix up their kinds for
matching ones. -/
namespace FeatureText

namespace Bracket

/-- A bracket that is taken for a brace. -/
def Side.asBrace : Side → Side
  | .opening _ => .opening .brace
  | .closing _ => .closing .brace

/-- Once all brackets are taken for braces they match, but by their kinds they do not. -/
def MixesKinds (word : List Side) : Prop := Word (word.map Side.asBrace) ∧ ¬Word word

/-- A brace opens behind brackets that close some open ones, whatever their kinds. -/
def OpensBrace (depth : Nat) (word : List Side) : Prop :=
  ∃ before after, word = before ++ .opening .brace :: after ∧
    ClosesAll (List.replicate depth .brace) (before.map Side.asBrace)

variable {depth : Nat} {bracket : Bracket} {word : List Side}

theorem not_opensBrace_nil : ¬OpensBrace depth [] := by
  rintro ⟨before, after, eq, -⟩
  cases before <;> cases eq

theorem opensBrace_opening_iff :
    OpensBrace depth (.opening bracket :: word) ↔
      depth = 0 ∧ bracket = .brace ∨ OpensBrace (depth + 1) word := by
  constructor
  · rintro ⟨before, after, eq, closes⟩
    cases before with
    | nil =>
      cases eq
      rw [List.map_nil, closesAll_nil_iff, List.replicate_eq_nil_iff] at closes
      exact .inl ⟨closes, rfl⟩
    | cons side before =>
      cases eq
      exact .inr ⟨before, after, rfl, closesAll_opening_iff.mp closes⟩
  · rintro (⟨rfl, rfl⟩ | ⟨before, after, rfl, closes⟩)
    · exact ⟨[], word, rfl, .empty⟩
    · exact ⟨.opening bracket :: before, after, rfl, closesAll_opening_iff.mpr closes⟩

theorem opensBrace_closing_iff :
    OpensBrace (depth + 1) (.closing bracket :: word) ↔ OpensBrace depth word := by
  constructor
  · rintro ⟨before, after, eq, closes⟩
    cases before with
    | nil => cases eq
    | cons side before =>
      cases eq
      exact ⟨before, after, rfl, (closesAll_closing_iff.mp closes).2⟩
  · rintro ⟨before, after, rfl, closes⟩
    exact ⟨.closing bracket :: before, after, rfl, closesAll_closing_iff.mpr ⟨rfl, closes⟩⟩

end Bracket

open FeatureText.Bracket

namespace FeatureRange

/-- The count of open brackets comes to an end at zero if they match but for their kinds. -/
theorem isSome_outerObjects_iff (depth : Nat) (start : Option Position)
    (tokens : List (Nat × Token)) :
    (outerObjects depth start tokens).isSome ↔
      ClosesAll (List.replicate depth .brace)
        ((tokens.filterMap Token.placedSide?).map Side.asBrace) := by
  induction tokens generalizing depth start with
  | nil =>
    rw [List.filterMap_nil, List.map_nil, closesAll_nil_iff, List.replicate_eq_nil_iff]
    cases depth <;> simp [outerObjects]
  | cons placed tokens ih =>
    obtain ⟨line, token⟩ := placed
    cases token with
    | opening bracket column =>
      rw [outerObjects, ih, List.replicate_succ, ← closesAll_opening_iff]
      rfl
    | closing bracket column =>
      cases depth with
      | zero => exact iff_of_false Bool.false_ne_true not_closesAll_closing
      | succ depth =>
        refine Iff.trans ?_ (closesAll_closing_iff.trans (and_iff_right rfl)).symm
        cases depth with
        | zero => rw [outerObjects, Option.isSome_map, ih]
        | succ depth => rw [outerObjects, ih]
    | quoted | colon | comma => cases depth <;> exact ih _ start

theorem ne_nil_iff_of_outerObjects {depth : Nat} {start : Option Position}
    {tokens : List (Nat × Token)} {objects : List (Position × Position)}
    (found : outerObjects depth start tokens = some objects) (idle : depth = 0 → start = none) :
    objects ≠ [] ↔ start.isSome ∨ OpensBrace depth (tokens.filterMap Token.placedSide?) := by
  induction tokens generalizing depth start objects with
  | nil =>
    cases depth with
    | zero =>
      cases found
      simp [idle, not_opensBrace_nil]
    | succ depth => cases found
  | cons placed tokens ih =>
    obtain ⟨line, token⟩ := placed
    cases token with
    | opening bracket column =>
      rw [outerObjects] at found
      have later := ih found (by simp)
      change _ ↔ _ ∨ OpensBrace depth (.opening bracket :: tokens.filterMap Token.placedSide?)
      rw [opensBrace_opening_iff, later]
      split
      · next outermost => simp [outermost]
      · next other => simp [other]
    | closing bracket column =>
      change _ ↔ _ ∨ OpensBrace depth (.closing bracket :: tokens.filterMap Token.placedSide?)
      cases depth with
      | zero => cases found
      | succ depth =>
        rw [opensBrace_closing_iff]
        cases depth with
        | zero =>
          rw [outerObjects] at found
          obtain ⟨others, later, rfl⟩ := Option.map_eq_some_iff.mp found
          have rest := ih later fun _ => rfl
          cases start with
          | none => simpa using rest
          | some opened => simp
        | succ depth =>
          rw [outerObjects] at found
          exact ih found (by simp)
    | quoted | colon | comma =>
      exact ih (by cases depth <;> exact found) idle

theorem ofLines_ne_nil_iff (lines : List Line) :
    ofLines lines ≠ [] ↔ Word ((sides lines).map Side.asBrace) ∧ OpensBrace 0 (sides lines) := by
  have level := isSome_outerObjects_iff 0 none (Token.placed lines)
  rw [filterMap_placed, List.replicate_zero, ClosesAll] at level
  rw [← level, ofLines]
  cases found : outerObjects 0 none (Token.placed lines) with
  | none => simp [ofObjects]
  | some objects =>
    have some := ne_nil_iff_of_outerObjects found fun _ => rfl
    rw [filterMap_placed] at some
    have count := congrArg List.length (map_lines_ofObjects lines objects)
    rw [List.length_map, List.length_map] at count
    rw [Option.getD_some, ← List.length_pos_iff, count, List.length_pos_iff, some]
    simp

/-- Lines whose brackets do not match have no features, unless the brackets only mix up their kinds
and a brace opens outside of all others. -/
theorem unbalanced_has_no_ranges_iff {lines : List Line} (unbalanced : isBalanced lines = false) :
    ofLines lines = [] ↔ ¬(MixesKinds (sides lines) ∧ OpensBrace 0 (sides lines)) := by
  have word : ¬Word (sides lines) := by
    rw [← isBalanced_iff_word, unbalanced]
    exact Bool.false_ne_true
  rw [← not_iff_not, not_not, MixesKinds, and_iff_left word]
  exact ofLines_ne_nil_iff lines

theorem unbalanced_has_no_ranges_iff_crossed :
    isBalanced [['[', '{', ']', '}']] = false ∧ ofLines [['[', '{', ']', '}']] = [] := by
  have unbalanced : isBalanced [['[', '{', ']', '}']] = false := by decide
  refine ⟨unbalanced, (unbalanced_has_no_ranges_iff unbalanced).mpr ?_⟩
  rintro ⟨-, opens⟩
  have word : sides [['[', '{', ']', '}']] =
      [.opening .square, .opening .brace, .closing .square, .closing .brace] := by decide
  rw [word, opensBrace_opening_iff, opensBrace_opening_iff, opensBrace_closing_iff,
    opensBrace_closing_iff] at opens
  simp [not_opensBrace_nil] at opens

/-- An object that is closed like a list has a range. -/
theorem mixed_kinds_have_range :
    isBalanced [['{', ']']] = false ∧
      (ofLines [['{', ']']]).map (fun r => (r.startLine, r.stopLine)) = [(0, 0)] := by
  have found : outerObjects 0 none (Token.placed [['{', ']']]) = some [(⟨0, 0⟩, ⟨0, 1⟩)] := by
    decide
  refine ⟨by decide, ?_⟩
  rw [ofLines_eq_ofObjects found, map_lines_ofObjects]
  rfl

end FeatureRange

end FeatureText
