import FeatureText.Proofs.Bracket.Column
import FeatureText.Text.Significant

/-! Which characters of a line the tokenizer takes to be in a string literal, told by the state that
the characters in front of them lead to: all behind an opening quote as far as the first quote that
no backslash escapes, and both quotes. -/
namespace FeatureText

namespace Token

open Significant

/-- A literal among the tokens takes up a column, its quotes included. -/
def InLiteral (tokens : List Token) (column : Nat) : Prop :=
  ∃ raw start, quoted raw start ∈ tokens ∧ start ≤ column ∧ column ≤ start + raw.length + 1

def EndsLiteral (tokens : List Token) (column : Nat) : Prop :=
  ∃ raw start, quoted raw start ∈ tokens ∧ start + raw.length + 1 = column

variable {content rest : Line} {column : Nat} {mode : Mode} {c : Char} {tokens front : List Token}

theorem quote_mem_of_mem_scan_outside {raw : Text} {start : Nat}
    (h : quoted raw start ∈ scan .outside column content) : ('"', start) ∈ content.zipIdx column :=
  (sublist_scan_outside content column).subset (List.mem_filterMap.mpr ⟨_, h, rfl⟩)

theorem exists_scan_inside_eq (content : Line) (start column : Nat) (raw : Text) (escaped : Bool) :
    ∃ whole tail, scan (.inside start raw escaped) column content = quoted whole start :: tail ∧
      raw.length ≤ whole.length ∧ ∀ raw later, quoted raw later ∈ tail → column < later := by
  induction content generalizing column raw escaped with
  | nil => exact ⟨raw.reverse, [], rfl, by simp, by simp⟩
  | cons c rest ih =>
    have longer (escaped : Bool) : ∃ whole tail,
        scan (.inside start (c :: raw) escaped) (column + 1) rest = quoted whole start :: tail ∧
          raw.length ≤ whole.length ∧ ∀ raw later, quoted raw later ∈ tail → column < later := by
      obtain ⟨whole, tail, found, length, behind⟩ := ih (column + 1) (c :: raw) escaped
      refine ⟨whole, tail, found, Nat.le_of_succ_le length, fun raw later there => ?_⟩
      exact Nat.lt_of_succ_lt (behind raw later there)
    cases escaped with
    | true => exact longer false
    | false =>
      rw [scan]
      split
      · refine ⟨raw.reverse, _, rfl, by simp, fun _ _ there => ?_⟩
        exact List.le_snd_of_mem_zipIdx (quote_mem_of_mem_scan_outside there)
      · exact longer _

def Mode.place : Mode → Where
  | .outside => .outside
  | .inside _ _ true => .escaped
  | .inside _ _ false => .inside

def Mode.UpTo (column : Nat) : Mode → Prop
  | .outside => True
  | .inside start raw _ => start + raw.length + 1 = column

/-- One character takes the tokenizer to the state that it takes any reader to. A literal that it
closes ends with it. -/
theorem exists_scan_step (upTo : mode.UpTo column) (c : Char) (rest : Line) :
    ∃ front next, scan mode column (c :: rest) = front ++ scan next (column + 1) rest ∧
      next.place = mode.place.step c ∧ next.UpTo (column + 1) ∧
        ∀ raw start, quoted raw start ∈ front → start + raw.length + 1 = column := by
  cases mode with
  | outside =>
    by_cases quote : c = '"'
    · refine ⟨[], .inside column [] false, ?_, ?_, rfl, by simp⟩
      · rw [scan, if_pos quote]
        rfl
      · simp [Mode.place, Where.step, quote]
    · refine ⟨(mark? c column).toList, .outside, ?_, ?_, trivial, fun raw start there => ?_⟩
      · rw [scan, if_neg quote]
        cases mark? c column <;> rfl
      · simp [Mode.place, Where.step, quote]
      · rcases sign?_of_mark? (Option.mem_toList.mp there) with none | some
        · cases none
        · exact absurd (Prod.mk.inj (Option.some.inj some)).1.symm quote
  | inside start raw escaped =>
    have reached : start + raw.length + 1 = column := upTo
    have longer : start + (c :: raw).length + 1 = column + 1 := by
      rw [List.length_cons]
      omega
    cases escaped with
    | true => exact ⟨[], .inside start (c :: raw) false, rfl, rfl, longer, by simp⟩
    | false =>
      by_cases quote : c = '"'
      · refine ⟨[.quoted raw.reverse start], .outside, ?_, ?_, trivial, ?_⟩
        · rw [scan, if_pos quote]
          rfl
        · simp [Mode.place, Where.step, quote]
        · simp [reached]
      · refine ⟨[], .inside start (c :: raw) (c == '\\'), ?_, ?_, longer, by simp⟩
        · rw [scan, if_neg quote]
          rfl
        · by_cases escape : c = '\\'
          · simp [Mode.place, Where.step, escape]
          · have plain : (c == '\\') = false := beq_false_of_ne escape
            simp [Mode.place, Where.step, quote, escape, plain]

theorem inLiteral_append_of_lt (before : ∀ raw start, quoted raw start ∈ front →
      start + raw.length + 1 < column) :
    InLiteral (front ++ tokens) column ↔ InLiteral tokens column := by
  constructor
  · rintro ⟨raw, start, there, first, last⟩
    rcases List.mem_append.mp there with there | there
    · exact absurd (before raw start there) (Nat.not_lt.mpr last)
    · exact ⟨raw, start, there, first, last⟩
  · rintro ⟨raw, start, there, extent⟩
    exact ⟨raw, start, List.mem_append_right _ there, extent⟩

theorem endsLiteral_append_of_lt (before : ∀ raw start, quoted raw start ∈ front →
      start + raw.length + 1 < column) :
    EndsLiteral (front ++ tokens) column ↔ EndsLiteral tokens column := by
  constructor
  · rintro ⟨raw, start, there, last⟩
    rcases List.mem_append.mp there with there | there
    · exact absurd (before raw start there) (Nat.not_lt.mpr (Nat.le_of_eq last.symm))
    · exact ⟨raw, start, there, last⟩
  · rintro ⟨raw, start, there, last⟩
    exact ⟨raw, start, List.mem_append_right _ there, last⟩

theorem EndsLiteral.inLiteral (h : EndsLiteral tokens column) : InLiteral tokens column := by
  obtain ⟨raw, start, there, rfl⟩ := h
  exact ⟨raw, start, there, by omega, Nat.le_refl _⟩

theorem inLiteral_scan_inside {start : Nat} {raw : Text} (reached : start + raw.length = column)
    (escaped : Bool) (rest : Line) :
    InLiteral (scan (.inside start raw escaped) (column + 1) rest) column ∧
      ¬EndsLiteral (scan (.inside start raw escaped) (column + 1) rest) column := by
  obtain ⟨whole, tail, found, length, behind⟩ :=
    exists_scan_inside_eq rest start (column + 1) raw escaped
  rw [found]
  constructor
  · exact ⟨whole, start, List.mem_cons_self, by omega, by omega⟩
  · rintro ⟨raw, later, there, last⟩
    rcases List.mem_cons.mp there with same | there
    · cases same
      omega
    · have := behind raw later there
      omega

theorem literal_scan_here (upTo : mode.UpTo column) (c : Char) (rest : Line) :
    (InLiteral (scan mode column (c :: rest)) column ↔ mode.place ≠ .outside ∨ c = '"') ∧
      (EndsLiteral (scan mode column (c :: rest)) column ↔ mode.place = .inside ∧ c = '"') := by
  cases mode with
  | outside =>
    have outside : Mode.outside.place = .outside := rfl
    by_cases quote : c = '"'
    · have reached : column + ([] : Text).length = column := rfl
      obtain ⟨inside, goesOn⟩ := inLiteral_scan_inside reached false rest
      rw [scan, if_pos quote]
      simp [inside, goesOn, outside, quote]
    · have free : ¬InLiteral (scan .outside column (c :: rest)) column := by
        rintro ⟨raw, start, there, first, -⟩
        have sign := quote_mem_of_mem_scan_outside there
        rw [List.zipIdx_cons] at sign
        rcases List.mem_cons.mp sign with same | later
        · exact quote (Prod.mk.inj same).1.symm
        · exact absurd (List.le_snd_of_mem_zipIdx later) (Nat.not_le.mpr (Nat.lt_succ_of_le first))
      simp [free, mt EndsLiteral.inLiteral free, outside, quote]
  | inside start raw escaped =>
    have reached : start + (c :: raw).length = column := upTo
    cases escaped with
    | true =>
      have escaped : (Mode.inside start raw true).place = .escaped := rfl
      obtain ⟨inside, goesOn⟩ := inLiteral_scan_inside reached false rest
      rw [scan]
      simp [inside, goesOn, escaped]
    | false =>
      have inside : (Mode.inside start raw false).place = .inside := rfl
      rw [scan]
      split
      · next quote =>
        have ends : EndsLiteral (quoted raw.reverse start :: scan .outside (column + 1) rest)
            column := ⟨raw.reverse, start, List.mem_cons_self, by rwa [List.length_reverse]⟩
        simp [ends, ends.inLiteral, inside, quote]
      · next plain =>
        obtain ⟨goesIn, goesOn⟩ := inLiteral_scan_inside reached (c == '\\') rest
        simp [goesIn, goesOn, inside, plain]

theorem literals_scan (upTo : mode.UpTo column) {i : Nat} (c : Char)
    (there : content[i]? = some c) :
    let state := (content.take i).foldl Where.step mode.place
    (InLiteral (scan mode column content) (column + i) ↔ state ≠ .outside ∨ c = '"') ∧
      (EndsLiteral (scan mode column content) (column + i) ↔ state = .inside ∧ c = '"') := by
  induction content generalizing mode column i with
  | nil => cases there
  | cons first rest ih =>
    cases i with
    | zero =>
      cases there
      exact literal_scan_here upTo c rest
    | succ i =>
      obtain ⟨front, next, found, place, nextUpTo, ended⟩ := exists_scan_step upTo first rest
      have before : ∀ raw start, quoted raw start ∈ front →
          start + raw.length + 1 < column + 1 + i := by
        intro raw start there
        rw [ended raw start there]
        omega
      rw [← Nat.add_assoc, Nat.add_right_comm, found, inLiteral_append_of_lt before,
        endsLiteral_append_of_lt before, List.take_succ_cons, List.foldl_cons, ← place]
      exact ih nextUpTo there

theorem inLiteral_ofLine_iff (there : content[column]? = some c) :
    InLiteral (ofLine content) column ↔
      (content.take column).foldl Where.step .outside ≠ .outside ∨ c = '"' := by
  have start : Mode.outside.UpTo 0 := trivial
  have read := (literals_scan start c there).1
  rwa [Nat.zero_add] at read

theorem endsLiteral_ofLine_iff (there : content[column]? = some c) :
    EndsLiteral (ofLine content) column ↔
      (content.take column).foldl Where.step .outside = .inside ∧ c = '"' := by
  have start : Mode.outside.UpTo 0 := trivial
  have read := (literals_scan start c there).2
  rwa [Nat.zero_add] at read

end Token

end FeatureText
