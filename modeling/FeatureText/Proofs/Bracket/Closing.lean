import FeatureText.Proofs.Bracket.Pair
import Mathlib.Data.List.GetD
import Mathlib.Data.List.Induction

/-! The line that closes a bracket. It is found by a count of the brackets of one kind, and where
brackets match, the count comes back to zero at the bracket that the stack takes. -/
namespace FeatureText

namespace Token

def opensAt? (bracket : Bracket) : Token → Option Nat
  | .opening other column => if other = bracket then some column else none
  | _ => none

theorem opens_eq_isSome (bracket : Bracket) (token : Token) :
    token.opens bracket = (token.opensAt? bracket).isSome := by
  cases token with
  | opening other column => by_cases same : other = bracket <;> simp [opens, opensAt?, same]
  | _ => rfl

theorem eq_opening_of_opensAt? {bracket : Bracket} {token : Token} {column : Nat}
    (h : token.opensAt? bracket = some column) : token = .opening bracket column := by
  cases token with
  | opening other place =>
    rw [opensAt?] at h
    split at h
    · next same =>
      cases h
      rw [same]
    · cases h
  | _ => cases h

theorem placedFrom_take_append_drop (first count : Nat) (lines : List Line) :
    placedFrom first (lines.take count) ++ placedFrom (first + count) (lines.drop count) =
      placedFrom first lines := by
  induction lines generalizing first count with
  | nil => simp [placedFrom]
  | cons line lines ih =>
    cases count with
    | zero => rfl
    | succ count =>
      rw [List.take_succ_cons, List.drop_succ_cons, placedFrom, placedFrom, List.append_assoc,
        ← ih (first + 1) count]
      congr 3
      omega

theorem placedFrom_drop (lines : List Line) (start : Nat) :
    placedFrom start (lines.drop start) = (ofLine (lines.getD start [])).map (start, ·) ++
      placedFrom (start + 1) (lines.drop (start + 1)) := by
  by_cases within : start < lines.length
  · rw [List.drop_eq_getElem_cons within, placedFrom, List.getD_eq_getElem _ _ within]
  · have behind : lines.length ≤ start := Nat.le_of_not_lt within
    rw [List.drop_eq_nil_of_le behind, List.drop_eq_nil_of_le (Nat.le_succ_of_le behind),
      List.getD_eq_default _ _ behind]
    rfl

end Token

namespace Bracket

variable {bracket : Bracket} {lines : List Line} {start column : Nat}

def firstColumn? (bracket : Bracket) (line : Line) : Option Nat :=
  (Token.ofLine line).findSome? (Token.opensAt? bracket)

section Step

variable {token : Token} (line depth : Nat) (rest : List (Nat × Token))

theorem partnerLine?_cons_of_opens (h : token.opens bracket) :
    partnerLine? bracket depth ((line, token) :: rest) =
      partnerLine? bracket (depth + 1) rest := by
  rw [partnerLine?.eq_def]
  exact if_pos h

theorem partnerLine?_cons_of_neither (opens : token.opens bracket = false)
    (closes : token.closes bracket = false) :
    partnerLine? bracket depth ((line, token) :: rest) = partnerLine? bracket depth rest := by
  rw [partnerLine?.eq_def]
  simp [opens, closes]

end Step

theorem partnerLine?_append_of_not_opens {word : List (Nat × Token)}
    (h : ∀ placed ∈ word, placed.2.opensAt? bracket = none) (rest : List (Nat × Token)) :
    partnerLine? bracket 0 (word ++ rest) = partnerLine? bracket 0 rest := by
  induction word with
  | nil => rfl
  | cons placed word ih =>
    obtain ⟨line, token⟩ := placed
    rw [List.forall_mem_cons] at h
    rw [List.cons_append, partnerLine?, Token.opens_eq_isSome, h.1, ih h.2]
    simp

theorem partnerLine?_append {word : List (Nat × Token)} (h : Nested Token.placedSide? word)
    (bracket : Bracket) (depth : Nat) (rest : List (Nat × Token)) :
    partnerLine? bracket (depth + 1) (word ++ rest) = partnerLine? bracket (depth + 1) rest := by
  induction h generalizing depth rest with
  | nil => rfl
  | @other a word h _ ih =>
    obtain ⟨line, token⟩ := a
    rw [List.cons_append, ← ih depth rest]
    cases token with
    | opening | closing => cases h
    | _ => exact partnerLine?_cons_of_neither _ _ _ rfl rfl
  | @nest a z inner word other ha hz _ _ ihInner ihRest =>
    obtain ⟨line, token⟩ := a
    obtain ⟨stop, last⟩ := z
    cases token <;> cases ha
    cases last <;> cases hz
    rw [List.cons_append, List.append_assoc, List.cons_append, ← ihRest depth rest]
    by_cases same : other = bracket
    · subst same
      rw [partnerLine?_cons_of_opens _ _ _ (by simp [Token.opens]), ihInner]
      simp [partnerLine?, Token.opens, Token.closes]
    · rw [partnerLine?_cons_of_neither _ _ _ (by simp [Token.opens, same]) rfl, ihInner,
        partnerLine?_cons_of_neither _ _ _ rfl (by simp [Token.closes, same])]

theorem partnerLine?_of_word {tokens : List (Nat × Token)} {inner after : List (Side × Position)}
    {q : Position} (word : Word (inner.map Prod.fst))
    (h : tokens.filterMap Token.bracketAt? = inner ++ (.closing bracket, q) :: after) :
    partnerLine? bracket 1 tokens = some q.line := by
  obtain ⟨front, back, rfl, rfl, last⟩ := List.filterMap_eq_append_iff.mp h
  obtain ⟨gap, ⟨line, token⟩, rest, rfl, none, closing, -⟩ := List.filterMap_eq_cons_iff.mp last
  have nested : Nested Token.placedSide? (front ++ gap) := by
    apply Word.nested
    rw [← funext Token.map_fst_bracketAt?, ← List.map_filterMap, List.filterMap_append,
      List.filterMap_eq_nil_iff.mpr none, List.append_nil]
    exact word
  rw [← List.append_assoc, partnerLine?_append nested]
  cases token <;> cases closing
  simp [partnerLine?, Token.opens, Token.closes]

theorem closingLine?_eq_none (h : firstColumn? bracket (lines.getD start []) = none) :
    closingLine? bracket lines start = none := by
  rw [firstColumn?, List.findSome?_eq_none_iff] at h
  rw [closingLine?, if_neg]
  simpa [Token.opens_eq_isSome] using h

theorem closingLine?_of_balanced (balanced : isBalanced lines)
    (h : firstColumn? bracket (lines.getD start []) = some column) :
    ∃ q, IsPartner lines bracket ⟨start, column⟩ q ∧
      closingLine? bracket lines start = some q.line := by
  obtain ⟨front, token, more, split, opens, none⟩ := List.findSome?_eq_some_iff.mp h
  obtain rfl := Token.eq_opening_of_opensAt? opens
  let before : List (Nat × Token) := front.map (start, ·)
  let behind := more.map (start, ·) ++ Token.placedFrom (start + 1) (lines.drop (start + 1))
  have onward : Token.placedFrom start (lines.drop start) =
      before ++ (start, .opening bracket column) :: behind := by
    rw [Token.placedFrom_drop, split]
    simp [before, behind]
  have whole : Token.brackets lines =
      (Token.placedFrom 0 (lines.take start) ++ before).filterMap Token.bracketAt? ++
        (.opening bracket, ⟨start, column⟩) :: behind.filterMap Token.bracketAt? := by
    rw [Token.brackets, Token.placed, ← Token.placedFrom_take_append_drop 0 start, Nat.zero_add,
      onward, ← List.append_assoc, List.filterMap_append]
    rfl
  obtain ⟨inner, q, after, eq, word, pair⟩ := exists_partner balanced whole
  refine ⟨q, pair, ?_⟩
  have any : (Token.ofLine (lines.getD start [])).any (Token.opens bracket) := by
    rw [split]
    simp [Token.opens]
  rw [closingLine?, if_pos any, onward, partnerLine?_append_of_not_opens (by simpa [before]),
    partnerLine?, if_pos (by simp [Token.opens])]
  exact partnerLine?_of_word word eq

/-- A count on its way: whether it has begun, how many brackets are open by it, and the line where
it came back to zero, which ends it. -/
structure Tally where
  started : Bool
  depth : Int
  line? : Option Nat

namespace Tally

def zero : Tally := ⟨false, 0, none⟩

def step (bracket : Bracket) (t : Tally) (placed : Nat × Token) : Tally :=
  if t.line?.isSome then t
  else if placed.2.opens bracket then ⟨true, t.depth + 1, none⟩
  else if placed.2.closes bracket && t.started then
    ⟨true, t.depth - 1, if t.depth - 1 = 0 then some placed.1 else none⟩
  else t

def run (bracket : Bracket) (tokens : List (Nat × Token)) : Tally :=
  tokens.foldl (step bracket) zero

/-- The count from a line on, which gives up behind that line if it has not begun by then. -/
def closingLine? (bracket : Bracket) (lines : List Line) (start : Nat) : Option Nat :=
  if (run bracket ((Token.ofLine (lines.getD start [])).map (start, ·))).started then
    (run bracket (Token.placedFrom start (lines.drop start))).line?
  else none

def counting (depth : Nat) : Tally := ⟨decide (0 < depth), depth, none⟩

def ended (line : Nat) : Tally := ⟨true, 0, some line⟩

def IsSound (t : Tally) : Prop := (∃ depth, t = counting depth) ∨ ∃ line, t = ended line

variable {t : Tally}

theorem IsSound.depth_nonneg (h : t.IsSound) : 0 ≤ t.depth := by
  rcases h with ⟨depth, rfl⟩ | ⟨line, rfl⟩
  · exact Int.natCast_nonneg depth
  · exact Int.le_refl 0

theorem step_counting (bracket : Bracket) (depth line : Nat) (token : Token) :
    (∃ next, step bracket (counting depth) (line, token) = counting next ∧
      ∀ rest, partnerLine? bracket depth ((line, token) :: rest) =
        partnerLine? bracket next rest) ∨
    (step bracket (counting depth) (line, token) = ended line ∧
      ∀ rest, partnerLine? bracket depth ((line, token) :: rest) = some line) := by
  cases opens : token.opens bracket with
  | true =>
    refine .inl ⟨depth + 1, ?_, fun rest => partnerLine?_cons_of_opens _ _ _ opens⟩
    simp [step, counting, opens]
  | false =>
    cases closes : token.closes bracket with
    | false =>
      refine .inl ⟨depth, ?_, fun rest => partnerLine?_cons_of_neither _ _ _ opens closes⟩
      simp [step, counting, opens, closes]
    | true =>
      match depth with
      | 0 => exact .inl ⟨0, by simp [step, counting, opens], by simp [partnerLine?, opens]⟩
      | 1 =>
        refine .inr ⟨?_, by simp [partnerLine?, opens, closes]⟩
        simp [step, counting, ended, opens, closes]
      | depth + 2 =>
        refine .inl ⟨depth + 1, ?_, by simp [partnerLine?, opens, closes]⟩
        have above : (depth : Int) + 2 - 1 = depth + 1 := by omega
        have positive : (depth : Int) + 1 ≠ 0 := by omega
        simp [step, counting, opens, closes, above, positive]

theorem step_ended (bracket : Bracket) (line : Nat) (placed : Nat × Token) :
    step bracket (ended line) placed = ended line := rfl

theorem IsSound.step (h : t.IsSound) (bracket : Bracket) (placed : Nat × Token) :
    (t.step bracket placed).IsSound := by
  rcases h with ⟨depth, rfl⟩ | ⟨line, rfl⟩
  · rcases step_counting bracket depth placed.1 placed.2 with ⟨next, eq, -⟩ | ⟨eq, -⟩
    · exact .inl ⟨next, eq⟩
    · exact .inr ⟨placed.1, eq⟩
  · exact .inr ⟨line, step_ended bracket line placed⟩

theorem IsSound.started_step (h : t.IsSound) (bracket : Bracket) (placed : Nat × Token) :
    (t.step bracket placed).started = (t.started || placed.2.opens bracket) := by
  rcases h with ⟨depth, rfl⟩ | ⟨line, rfl⟩
  · cases opens : placed.2.opens bracket with
    | true => simp [Tally.step, counting, opens]
    | false =>
      by_cases down : placed.2.closes bracket ∧ 0 < depth
      · simp [Tally.step, counting, opens, down]
      · simp [Tally.step, counting, opens, down]
  · rfl

theorem isSound_run (bracket : Bracket) (tokens : List (Nat × Token)) :
    (run bracket tokens).IsSound := by
  induction tokens using List.reverseRecOn with
  | nil => exact .inl ⟨0, rfl⟩
  | append_singleton tokens placed ih =>
    rw [run, List.foldl_append]
    exact ih.step bracket placed

theorem started_run (bracket : Bracket) (tokens : List (Nat × Token)) :
    (run bracket tokens).started = tokens.any (·.2.opens bracket) := by
  induction tokens using List.reverseRecOn with
  | nil => rfl
  | append_singleton tokens placed ih =>
    rw [run, List.foldl_append, List.any_append, ← ih, List.any_cons, List.any_nil, Bool.or_false]
    exact (isSound_run bracket tokens).started_step bracket placed

theorem line?_foldl_counting (bracket : Bracket) (depth : Nat) (tokens : List (Nat × Token)) :
    (tokens.foldl (step bracket) (counting depth)).line? = partnerLine? bracket depth tokens := by
  induction tokens generalizing depth with
  | nil => rfl
  | cons placed tokens ih =>
    obtain ⟨line, token⟩ := placed
    rw [List.foldl_cons]
    rcases step_counting bracket depth line token with ⟨next, eq, found⟩ | ⟨eq, found⟩
    · rw [eq, found, ih]
    · have stays : tokens.foldl (step bracket) (ended line) = ended line :=
        List.foldl_fixed' (step_ended bracket line) tokens
      rw [eq, found, stays]
      rfl

theorem closingLine?_eq (bracket : Bracket) (lines : List Line) (start : Nat) :
    closingLine? bracket lines start = Bracket.closingLine? bracket lines start := by
  have begun : ((Token.ofLine (lines.getD start [])).map (start, ·)).any (·.2.opens bracket) =
      (Token.ofLine (lines.getD start [])).any (Token.opens bracket) := by
    rw [List.any_map]
    rfl
  rw [closingLine?, started_run, begun, Bracket.closingLine?]
  exact congrArg (ite _ · none) (line?_foldl_counting bracket 0 _)

end Tally

/-- Counting one kind finds the partner of the first bracket of that kind that opens on a line,
where brackets match; and on any lines the count is never below zero. -/
theorem closing_line_holds_partner (bracket : Bracket) (lines : List Line) (start : Nat) :
    (isBalanced lines →
      match firstColumn? bracket (lines.getD start []) with
      | some column => ∃ q, IsPartner lines bracket ⟨start, column⟩ q ∧
          closingLine? bracket lines start = some q.line
      | none => closingLine? bracket lines start = none) ∧
    closingLine? bracket lines start = Tally.closingLine? bracket lines start ∧
    ∀ count, 0 ≤ (Tally.run bracket
      ((Token.placedFrom start (lines.drop start)).take count)).depth := by
  refine ⟨fun balanced => ?_, ?_, fun count => ?_⟩
  · cases found : firstColumn? bracket (lines.getD start []) with
    | some column => exact closingLine?_of_balanced balanced found
    | none => exact closingLine?_eq_none found
  · exact (Tally.closingLine?_eq bracket lines start).symm
  · exact (Tally.isSound_run bracket _).depth_nonneg

/-- Objects in a list, the second of which opens behind the end of the first, on its line. -/
def adjoiningObjects : List Line :=
  [['[', '{'], ['}', ',', '{', '"', 'a', '"', ':', '['], [']', '}', ',', '{', '}'], [']']]

theorem closing_line_holds_partner_adjoiningObjects :
    isBalanced adjoiningObjects ∧
      ∃ q, IsPartner adjoiningObjects .brace ⟨1, 2⟩ q ∧
        closingLine? .brace adjoiningObjects 1 = some q.line := by
  have balanced : isBalanced adjoiningObjects := by decide
  have first : firstColumn? .brace (adjoiningObjects.getD 1 []) = some 2 := by decide
  have closed := (closing_line_holds_partner .brace adjoiningObjects 1).1 balanced
  rw [first] at closed
  exact ⟨balanced, closed⟩

end Bracket

end FeatureText
