import FeatureText.Proofs.Bracket.Column
import Mathlib.Data.List.Induction

/-! How far the literals of a line extend, by a rule that looks at whole runs of backslashes: a
literal goes on to the next quote that has an even number of backslashes right in front of it, or to
the end of the line. The tokens of a line are its literals, and what stands outside of them. -/
namespace FeatureText

namespace Token

def backslashes (text : Text) : Nat := (text.reverse.takeWhile (· = '\\')).length

/-- Of what stands behind an opening quote, this character is a quote that closes the literal: the
backslashes in front of it, as far as they are in the literal, come in pairs. -/
def ClosesAt (behind : Line) (i : Nat) : Prop :=
  behind[i]? = some '"' ∧ backslashes (behind.take i) % 2 = 0

instance (behind : Line) (i : Nat) : Decidable (ClosesAt behind i) :=
  inferInstanceAs (Decidable (_ ∧ _))

def closing? (behind : Line) : Option Nat :=
  (List.range behind.length).find? (ClosesAt behind ·)

structure Literal where
  first : Nat
  raw : Text
deriving DecidableEq, Repr

namespace Literal

def last (l : Literal) : Nat := l.first + l.raw.length + 1

def covers (l : Literal) (column : Nat) : Bool := l.first ≤ column && column ≤ l.last

theorem covers_iff {l : Literal} {column : Nat} :
    l.covers column = true ↔ l.first ≤ column ∧ column ≤ l.last := by
  rw [covers, Bool.and_eq_true, decide_eq_true_eq, decide_eq_true_eq]

theorem first_lt_last (l : Literal) : l.first < l.last := by
  rw [last]
  omega

end Literal

/-- The literals of a text that begins in a column, outside of literals. -/
def literalsFrom (column : Nat) : Line → List Literal
  | [] => []
  | c :: rest =>
    if c = '"' then
      match closing? rest with
      | some i => ⟨column, rest.take i⟩ :: literalsFrom (column + i + 2) (rest.drop (i + 1))
      | none => [⟨column, rest⟩]
    else literalsFrom (column + 1) rest
termination_by line => line.length

def literals (line : Line) : List Literal := literalsFrom 0 line

def signAt? (c : Char) (column : Nat) : Option Token :=
  if c = '{' then some (.opening .brace column)
  else if c = '[' then some (.opening .square column)
  else if c = '}' then some (.closing .brace column)
  else if c = ']' then some (.closing .square column)
  else if c = ':' then some .colon
  else if c = ',' then some .comma
  else none

def tokenAt? (literals : List Literal) (cell : Char × Nat) : Option Token :=
  match literals.find? (·.covers cell.2) with
  | some l => if l.first = cell.2 then some (.quoted l.raw l.first) else none
  | none => signAt? cell.1 cell.2

/-- No literal is left open at the end of the line. -/
def EndsOutside (line : Line) : Prop := ∀ l ∈ literals line, l.last < line.length

def shift (width : Nat) : Token → Token
  | .opening bracket column => .opening bracket (column + width)
  | .closing bracket column => .closing bracket (column + width)
  | .quoted raw column => .quoted raw (column + width)
  | .colon => .colon
  | .comma => .comma

variable {behind raw rest line : Line} {column i : Nat} {l : Literal} {more : List Literal}

theorem backslashes_concat (text : Text) (c : Char) :
    backslashes (text ++ [c]) = if c = '\\' then backslashes text + 1 else 0 := by
  rw [backslashes, List.reverse_concat, List.takeWhile_cons]
  split <;> simp_all [backslashes]

theorem closesAt_append_iff (inside : i < behind.length) :
    ClosesAt (behind ++ rest) i ↔ ClosesAt behind i := by
  rw [ClosesAt, ClosesAt, List.getElem?_append_left inside,
    List.take_append_of_le_length (Nat.le_of_lt inside)]

theorem not_closesAt_of_closing? (h : closing? behind = none) (i : Nat) : ¬ClosesAt behind i := by
  rintro closes
  have inside := (List.getElem?_eq_some_iff.mp closes.1).1
  have passed := List.find?_eq_none.mp h i (List.mem_range.mpr inside)
  exact passed (decide_eq_true closes)

theorem parts_of_closing? (h : closing? behind = some i) :
    behind = behind.take i ++ '"' :: behind.drop (i + 1) ∧ (behind.take i).length = i ∧
      (∀ j, ¬ClosesAt (behind.take i) j) ∧ backslashes (behind.take i) % 2 = 0 := by
  obtain ⟨closes, inside, earlier⟩ := List.find?_range_eq_some.mp h
  obtain ⟨quote, even⟩ := of_decide_eq_true closes
  obtain ⟨inside, found⟩ := List.getElem?_eq_some_iff.mp quote
  have length : (behind.take i).length = i := List.length_take_of_le (Nat.le_of_lt inside)
  have whole : behind = behind.take i ++ '"' :: behind.drop (i + 1) := by
    rw [← found, List.getElem_cons_drop, List.take_append_drop]
  refine ⟨whole, length, fun j closes => ?_, even⟩
  have before := (List.getElem?_eq_some_iff.mp closes.1).1
  have first : ClosesAt behind j := by
    rw [whole, closesAt_append_iff before]
    exact closes
  rw [length] at before
  simpa [first] using earlier j before

/-- In a literal without a quote that closes it the tokenizer goes on, and looks out for an escaped
character exactly behind an odd number of backslashes. -/
theorem scan_append_of_not_closesAt (h : ∀ j, ¬ClosesAt raw j) (start : Nat) (done : Text)
    (column : Nat) (rest : Line) :
    scan (.inside start done false) column (raw ++ rest) =
      scan (.inside start (raw.reverse ++ done) (backslashes raw % 2 == 1)) (column + raw.length)
        rest := by
  induction raw using List.reverseRecOn generalizing rest with
  | nil => rfl
  | append_singleton init c ih =>
    have before : ∀ j, ¬ClosesAt init j := fun j closes => by
      have inside := (List.getElem?_eq_some_iff.mp closes.1).1
      exact h j ((closesAt_append_iff inside).mpr closes)
    have here := h init.length
    rw [ClosesAt, List.getElem?_concat_length, List.take_left] at here
    rw [List.append_assoc, ih before, List.reverse_concat, List.length_append, backslashes_concat,
      List.singleton_append, ← Nat.add_assoc]
    by_cases odd : backslashes init % 2 = 1
    · rw [odd, beq_self_eq_true, scan]
      split
      · have even : ((backslashes init + 1) % 2 == 1) = false := by simp; omega
        rw [even]
        rfl
      · rfl
    · have plain : (backslashes init % 2 == 1) = false := by simpa using odd
      have quote : c ≠ '"' := by
        rintro rfl
        exact here ⟨rfl, by omega⟩
      rw [plain, scan, if_neg quote]
      split
      · next escape =>
        have odd : ((backslashes init + 1) % 2 == 1) = true := by simp; omega
        rw [odd, escape]
        rfl
      · next other =>
        rw [beq_false_of_ne other]
        rfl

theorem scan_closed (h : ∀ j, ¬ClosesAt raw j) (even : backslashes raw % 2 = 0) (column : Nat)
    (rest : Line) :
    scan .outside column ('"' :: (raw ++ '"' :: rest)) =
      .quoted raw column :: scan .outside (column + raw.length + 2) rest := by
  have plain : (backslashes raw % 2 == 1) = false := by simp; omega
  rw [scan, if_pos rfl, scan_append_of_not_closesAt h, plain, scan, if_pos rfl, List.append_nil,
    List.reverse_reverse]
  congr 2
  omega

theorem scan_open (h : ∀ j, ¬ClosesAt raw j) (column : Nat) :
    scan .outside column ('"' :: raw) = [.quoted raw column] := by
  have whole := scan_append_of_not_closesAt h column [] (column + 1) []
  rw [List.append_nil, List.append_nil] at whole
  rw [scan, if_pos rfl, whole, scan, List.reverse_reverse]

theorem mark?_eq_signAt? (c : Char) (column : Nat) : mark? c column = signAt? c column := by
  unfold mark? signAt? Bracket.ofOpening? Bracket.ofClosing?
  by_cases brace : c = '{'
  · simp [brace]
  · by_cases square : c = '['
    · simp [square]
    · by_cases braceEnd : c = '}'
      · simp [braceEnd]
      · by_cases squareEnd : c = ']'
        · simp [squareEnd]
        · simp [brace, square, braceEnd, squareEnd]

theorem scan_other {c : Char} (other : c ≠ '"') (column : Nat) (rest : Line) :
    scan .outside column (c :: rest) =
      (signAt? c column).toList ++ scan .outside (column + 1) rest := by
  rw [scan, if_neg other, mark?_eq_signAt?]
  cases signAt? c column <;> rfl

theorem le_first_of_mem (h : l ∈ literalsFrom column line) : column ≤ l.first := by
  fun_induction literalsFrom column line with
  | case1 => cases h
  | case2 column rest i _ ih =>
    rcases List.mem_cons.mp h with rfl | h
    · exact Nat.le_refl _
    · have := ih h
      omega
  | case3 column rest =>
    rw [List.mem_singleton.mp h]
  | case4 column c rest _ ih => exact Nat.le_of_succ_le (ih h)

theorem tokenAt?_first (c : Char) :
    tokenAt? (l :: more) (c, l.first) = some (.quoted l.raw l.first) := by
  have covered := Literal.covers_iff.mpr ⟨Nat.le_refl l.first, Nat.le_of_lt l.first_lt_last⟩
  simp only [tokenAt?, List.find?_cons, covered, if_true]

theorem tokenAt?_behind_first {cell : Char × Nat} (behind : l.first < cell.2)
    (inside : cell.2 ≤ l.last) : tokenAt? (l :: more) cell = none := by
  have covered := Literal.covers_iff.mpr ⟨Nat.le_of_lt behind, inside⟩
  simp only [tokenAt?, List.find?_cons, covered]
  exact if_neg (Nat.ne_of_lt behind)

theorem tokenAt?_behind_last {cell : Char × Nat} (behind : l.last < cell.2) :
    tokenAt? (l :: more) cell = tokenAt? more cell := by
  have outside : l.covers cell.2 = false := by
    rw [Bool.eq_false_iff, Ne, Literal.covers_iff]
    omega
  simp only [tokenAt?, List.find?_cons, outside]

theorem tokenAt?_outside {cell : Char × Nat} (h : ∀ l ∈ more, cell.2 < l.first) :
    tokenAt? more cell = signAt? cell.1 cell.2 := by
  have none : more.find? (·.covers cell.2) = none := by
    refine List.find?_eq_none.mpr fun l hl => ?_
    have before := h l hl
    rw [Literal.covers_iff]
    omega
  rw [tokenAt?, none]

theorem filterMap_tokenAt?_literal (quote : Char) {inside : Line}
    (fits : inside.length ≤ l.raw.length + 1) :
    ((quote :: inside).zipIdx l.first).filterMap (tokenAt? (l :: more)) =
      [.quoted l.raw l.first] := by
  have silent : (inside.zipIdx (l.first + 1)).filterMap (tokenAt? (l :: more)) = [] := by
    refine List.filterMap_eq_nil_iff.mpr fun cell hc => ?_
    have behind := List.le_snd_of_mem_zipIdx hc
    have before := List.snd_lt_add_of_mem_zipIdx hc
    apply tokenAt?_behind_first
    · omega
    · rw [Literal.last]
      omega
  rw [List.zipIdx_cons, List.filterMap_cons_some (tokenAt?_first quote), silent]

theorem filterMap_tokenAt?_behind (h : l.last < column) :
    (line.zipIdx column).filterMap (tokenAt? (l :: more)) =
      (line.zipIdx column).filterMap (tokenAt? more) := by
  apply List.filterMap_congr
  intro cell hc
  exact tokenAt?_behind_last (Nat.lt_of_lt_of_le h (List.le_snd_of_mem_zipIdx hc))

theorem scan_eq_filterMap (column : Nat) (line : Line) :
    scan .outside column line =
      (line.zipIdx column).filterMap (tokenAt? (literalsFrom column line)) := by
  fun_induction literalsFrom column line with
  | case1 => rfl
  | case2 column rest i found ih =>
    obtain ⟨whole, length, goesOn, even⟩ := parts_of_closing? found
    have scanned := scan_closed goesOn even column (rest.drop (i + 1))
    rw [← whole, length, ih] at scanned
    have parts : '"' :: rest = ('"' :: (rest.take i ++ ['"'])) ++ rest.drop (i + 1) := by
      rw [List.cons_append, List.append_assoc, List.singleton_append, ← whole]
    have columns : column + ('"' :: (rest.take i ++ ['"'])).length = column + i + 2 := by
      simp only [List.length_cons, List.length_append, length, List.length_nil]
      omega
    rw [scanned, parts, List.zipIdx_append, List.filterMap_append, columns,
      filterMap_tokenAt?_literal '"' (by simp), filterMap_tokenAt?_behind]
    · rfl
    · simp only [Literal.last, length]
      omega
  | case3 column rest found =>
    rw [scan_open (not_closesAt_of_closing? found), filterMap_tokenAt?_literal '"' (by simp)]
  | case4 column c rest other ih =>
    have first : tokenAt? (literalsFrom (column + 1) rest) (c, column) = signAt? c column :=
      tokenAt?_outside fun l hl => le_first_of_mem hl
    rw [scan_other other, ih, List.zipIdx_cons]
    cases sign : signAt? c column with
    | none => rw [List.filterMap_cons_none (first.trans sign)]; rfl
    | some token => rw [List.filterMap_cons_some (first.trans sign)]; rfl

theorem scan_append (h : ∀ l ∈ literalsFrom column line, l.last < column + line.length)
    (rest : Line) :
    scan .outside column (line ++ rest) =
      scan .outside column line ++ scan .outside (column + line.length) rest := by
  fun_induction literalsFrom column line with
  | case1 => rfl
  | case2 column behind i found ih =>
    obtain ⟨whole, length, goesOn, even⟩ := parts_of_closing? found
    have size := congrArg List.length whole
    simp only [List.length_append, List.length_cons, length] at size
    have later := ih fun l hl => by
      have := h l (List.mem_cons_of_mem _ hl)
      rw [List.length_cons] at this
      omega
    have closed (tail : Line) := scan_closed goesOn even column tail
    have columns : column + i + 2 + (behind.drop (i + 1)).length =
        column + ('"' :: behind).length := by
      rw [List.length_cons]
      omega
    rw [length] at closed
    conv_lhs => rw [whole, List.cons_append, List.append_assoc, List.cons_append, closed, later]
    conv_rhs => rw [whole, closed]
    rw [List.cons_append, columns, ← whole]
  | case3 column behind found =>
    have opened := h _ (List.mem_singleton.mpr rfl)
    simp only [Literal.last, List.length_cons] at opened
    omega
  | case4 column c behind other ih =>
    have later := ih fun l hl => by
      have := h l hl
      rw [List.length_cons] at this
      omega
    have columns : column + 1 + behind.length = column + (c :: behind).length := by
      rw [List.length_cons]
      omega
    rw [List.cons_append, scan_other other, scan_other other, later, List.append_assoc, columns]

theorem map_shift_signAt? (c : Char) (column width : Nat) :
    (signAt? c column).map (shift width) = signAt? c (column + width) := by
  unfold signAt?
  split_ifs <;> rfl

theorem map_shift_scan (column width : Nat) (line : Line) :
    (scan .outside column line).map (shift width) = scan .outside (column + width) line := by
  fun_induction literalsFrom column line with
  | case1 => rfl
  | case2 column behind i found ih =>
    obtain ⟨whole, length, goesOn, even⟩ := parts_of_closing? found
    have closed (column : Nat) := scan_closed goesOn even column (behind.drop (i + 1))
    simp only [← whole, length] at closed
    have columns : column + i + 2 + width = column + width + i + 2 := by omega
    rw [closed, closed, List.map_cons, ih, columns]
    rfl
  | case3 column behind found =>
    have opened := scan_open (not_closesAt_of_closing? found)
    rw [opened, opened]
    rfl
  | case4 column c behind other ih =>
    rw [scan_other other, scan_other other, List.map_append, ih, Nat.add_right_comm,
      ← map_shift_signAt?, Option.toList_map]

/-- The tokens of a line are the literals, as runs of backslashes delimit them, and the signs that
are in none. A line that leaves no literal open can be cut off. -/
theorem tokens_follow_literals (content : Line) :
    let signs := (ofLine content).filterMap sign?
    (signs.map Prod.snd).Pairwise (· < ·) ∧
    (∀ c column, (c, column) ∈ signs → content[column]? = some c) ∧
    ofLine content = content.zipIdx.filterMap (tokenAt? (literals content)) ∧
    ∀ rest, EndsOutside content →
      ofLine (content ++ rest) = ofLine content ++ (ofLine rest).map (shift content.length) := by
  intro signs
  have sub : signs.Sublist content.zipIdx := sublist_scan_outside content 0
  refine ⟨?columns, ?characters, scan_eq_filterMap 0 content, ?cut⟩
  case columns =>
    refine List.Pairwise.sublist (sub.map Prod.snd) ?_
    rw [List.zipIdx_map_snd]
    exact List.pairwise_lt_range'
  case characters =>
    intro c column there
    exact List.mem_zipIdx_iff_getElem?.mp (sub.subset there)
  case cut =>
    intro rest outside
    have closed : ∀ l ∈ literalsFrom 0 content, l.last < 0 + content.length := by
      rw [Nat.zero_add]
      exact outside
    have moved := map_shift_scan 0 content.length rest
    rw [ofLine, ofLine, ofLine, scan_append closed, moved]

/-- A literal of two backslashes, a bracket, and a literal with a quote and a bracket in it. -/
def pairedBackslashes : Line := ['"', '\\', '\\', '"', '{', '"', '\\', '"', '}', '"', ':']

theorem tokens_follow_literals_pairedBackslashes :
    literals pairedBackslashes = [⟨0, ['\\', '\\']⟩, ⟨5, ['\\', '"', '}']⟩] ∧
      EndsOutside pairedBackslashes ∧
      ofLine (pairedBackslashes ++ ['[', '"', ']']) =
        [.quoted ['\\', '\\'] 0, .opening .brace 4, .quoted ['\\', '"', '}'] 5, .colon,
          .opening .square 11, .quoted [']'] 12] := by
  have found : literals pairedBackslashes = [⟨0, ['\\', '\\']⟩, ⟨5, ['\\', '"', '}']⟩] := by cbv
  have outside : EndsOutside pairedBackslashes := by
    rw [EndsOutside, found]
    decide
  obtain ⟨-, -, tokens, cut⟩ := tokens_follow_literals pairedBackslashes
  refine ⟨found, outside, ?_⟩
  rw [cut _ outside, tokens, found]
  decide

end Token

end FeatureText
