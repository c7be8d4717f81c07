import FeatureText.Json.Numeral
import Mathlib.Data.List.TakeWhile

/-! The grammar of numbers. A number is read at the front of a text exactly if it is spelled there
and the next character cannot go on with it. -/
namespace FeatureText

def Text.Avoids (text : Text) (stops : Char → Bool) : Prop := text.head?.any stops = false

namespace Text

@[simp] theorem avoids_nil (stops : Char → Bool) : Text.Avoids [] stops := rfl

@[simp] theorem avoids_cons {c : Char} {text : Text} {stops : Char → Bool} :
    Text.Avoids (c :: text) stops ↔ stops c = false := Iff.rfl

theorem Avoids.of_append {front text : Text} {stops : Char → Bool}
    (h : Text.Avoids (front ++ text) stops) : Text.Avoids front stops := by
  cases front with
  | nil => rfl
  | cons => exact h

theorem Avoids.mono {text : Text} {stops fewer : Char → Bool} (h : Text.Avoids text stops)
    (le : ∀ c, fewer c = true → stops c = true) : Text.Avoids text fewer := by
  cases text with
  | nil => rfl
  | cons c text =>
    rw [avoids_cons] at h ⊢
    exact Bool.eq_false_iff.mpr fun hc => Bool.eq_false_iff.mp h (le c hc)

end Text

def IsDigits (text : Text) : Prop := text ≠ [] ∧ ∀ c ∈ text, c.isDigit

structure Exponent.IsWritten (e : Exponent) : Prop where
  letter : e.letter = 'e' ∨ e.letter = 'E'
  sign : e.sign = none ∨ e.sign = some '-' ∨ e.sign = some '+'
  digits : IsDigits e.digits

namespace Numeral

structure IsWritten (n : Numeral) : Prop where
  whole : IsDigits n.whole
  zero : n.whole.head? = some '0' → n.whole = ['0']
  fraction : ∀ c ∈ n.fraction, c.isDigit
  exponent : ∀ e ∈ n.exponent, e.IsWritten

/-- The character would be read as more of the number. -/
def goesOn (n : Numeral) (c : Char) : Bool :=
  c.isDigit || n.exponent.isNone && (c == 'e' || c == 'E' || n.fraction.isEmpty && c == '.')

theorem digitsOf_append_of_avoids {digits rest : Text} (all : ∀ c ∈ digits, c.isDigit)
    (stop : rest.Avoids Char.isDigit) : digitsOf (digits ++ rest) = (digits, rest) := by
  have none : rest.takeWhile Char.isDigit = [] ∧ rest.dropWhile Char.isDigit = rest := by
    cases rest with
    | nil => exact ⟨rfl, rfl⟩
    | cons c rest =>
      rw [Text.avoids_cons] at stop
      simp [stop]
  simp [digitsOf, List.takeWhile_append_of_pos all, List.dropWhile_append_of_pos all, none]

theorem avoids_digitsOf (text : Text) : ((digitsOf text).2).Avoids Char.isDigit := by
  induction text with
  | nil => rfl
  | cons c text ih =>
    by_cases hc : c.isDigit
    · simpa [digitsOf, hc] using ih
    · simp [digitsOf, hc]

theorem isDigits_cons_digitsOf {c : Char} (hc : c.isDigit) (text : Text) :
    IsDigits (c :: (digitsOf text).1) := by
  refine ⟨by simp, ?_⟩
  intro d hd
  rcases List.mem_cons.mp hd with rfl | hd
  · exact hc
  · exact List.mem_takeWhile_imp hd

theorem isDigits_of_readDigits {reach : Nat} {text digits rest : Text}
    (h : readDigits reach text = .ok (digits, rest)) :
    IsDigits digits ∧ rest.Avoids Char.isDigit := by
  unfold readDigits at h
  split at h
  · simp at h
  · next c text =>
    split at h
    · next hc =>
      obtain ⟨rfl, rfl⟩ := Prod.mk.inj (Except.ok.inj h)
      exact ⟨isDigits_cons_digitsOf hc text, avoids_digitsOf text⟩
    · simp at h

theorem readDigits_append {digits rest : Text} (reach : Nat) (all : IsDigits digits)
    (stop : rest.Avoids Char.isDigit) :
    readDigits reach (digits ++ rest) = .ok (digits, rest) := by
  obtain ⟨some, all⟩ := all
  cases digits with
  | nil => exact absurd rfl some
  | cons c digits =>
    have hc : c.isDigit := all c (by simp)
    have hd := digitsOf_append_of_avoids (fun d hd => all d (List.mem_cons_of_mem c hd)) stop
    simp [readDigits, hc, hd]

theorem isDigits_of_readWhole {reach : Nat} {text digits rest : Text}
    (h : readWhole reach text = .ok (digits, rest)) :
    IsDigits digits ∧ (digits.head? = some '0' → digits = ['0']) ∧
      rest.Avoids Char.isDigit := by
  unfold readWhole at h
  split at h
  · simp at h
  · next c text =>
    split at h
    · split at h
      · simp at h
      · next stop =>
        obtain ⟨rfl, rfl⟩ := Prod.mk.inj (Except.ok.inj h)
        refine ⟨⟨by simp, by simp⟩, fun _ => rfl, ?_⟩
        cases text <;> simp_all
    · next zero =>
      split at h
      · next hc =>
        obtain ⟨rfl, rfl⟩ := Prod.mk.inj (Except.ok.inj h)
        refine ⟨isDigits_cons_digitsOf hc text, ?_, avoids_digitsOf text⟩
        intro hz
        exact absurd (Option.some.inj hz) zero
      · simp at h

theorem readWhole_append {digits rest : Text} (reach : Nat) (all : IsDigits digits)
    (zero : digits.head? = some '0' → digits = ['0']) (stop : rest.Avoids Char.isDigit) :
    readWhole reach (digits ++ rest) = .ok (digits, rest) := by
  obtain ⟨some, all⟩ := all
  cases digits with
  | nil => exact absurd rfl some
  | cons c digits =>
    have hc : c.isDigit := all c (by simp)
    have hd := digitsOf_append_of_avoids (fun d hd => all d (List.mem_cons_of_mem c hd)) stop
    by_cases hz : c = '0'
    · subst hz
      obtain rfl : digits = [] := by simpa using zero rfl
      cases rest <;> simp_all [readWhole]
    · simp [readWhole, hz, hc, hd]

theorem isDigits_of_readFraction {reach : Nat} {text digits rest : Text}
    (h : readFraction reach text = .ok (digits, rest)) (stop : text.Avoids Char.isDigit) :
    (∀ c ∈ digits, c.isDigit) ∧ rest.Avoids Char.isDigit ∧
      (digits.isEmpty → rest.Avoids (· == '.')) := by
  unfold readFraction at h
  split at h
  · obtain ⟨⟨some, all⟩, stop⟩ := isDigits_of_readDigits h
    exact ⟨all, stop, by simp [some]⟩
  · next point =>
    obtain ⟨rfl, rfl⟩ := Prod.mk.inj (Except.ok.inj h)
    refine ⟨by simp, stop, fun _ => ?_⟩
    cases text with
    | nil => rfl
    | cons c text =>
      have hc : c ≠ '.' := by
        rintro rfl
        exact point text rfl
      simpa using hc

theorem readFraction_append {digits rest : Text} (reach : Nat) (all : ∀ c ∈ digits, c.isDigit)
    (stop : rest.Avoids Char.isDigit) (point : digits.isEmpty → rest.Avoids (· == '.')) :
    readFraction reach (pointed digits ++ rest) = .ok (digits, rest) := by
  cases digits with
  | nil =>
    have point := point rfl
    cases rest with
    | nil => rfl
    | cons c rest =>
      have hc : c ≠ '.' := by simpa using point
      simp [readFraction, pointed, hc]
  | cons d digits => exact readDigits_append _ ⟨by simp, all⟩ stop

theorem exponentSign_digits {sign : Option Char} {digits : Text}
    (hs : sign = none ∨ sign = some '-' ∨ sign = some '+') (all : IsDigits digits) (rest : Text) :
    exponentSign (sign.toList ++ (digits ++ rest)) = (sign, digits ++ rest) := by
  obtain ⟨some, all⟩ := all
  cases digits with
  | nil => exact absurd rfl some
  | cons d digits =>
    have hd : d.isDigit := all d (by simp)
    rcases hs with rfl | rfl | rfl
    · have minus : d ≠ '-' := by rintro rfl; simp at hd
      have plus : d ≠ '+' := by rintro rfl; simp at hd
      simp [exponentSign, minus, plus]
    · rfl
    · rfl

theorem isWritten_of_readExponent {reach : Nat} {text rest : Text} {exponent : Option Exponent}
    (h : readExponent reach text = .ok (exponent, rest)) (stop : text.Avoids Char.isDigit) :
    (∀ e ∈ exponent, e.IsWritten) ∧ rest.Avoids Char.isDigit ∧
      (exponent.isNone → rest = text ∧ rest.Avoids fun c => c == 'e' || c == 'E') := by
  unfold readExponent at h
  split at h
  · obtain ⟨rfl, rfl⟩ := Prod.mk.inj (Except.ok.inj h)
    simp
  · next c tail =>
    split at h
    · next letter =>
      obtain ⟨⟨digits, left⟩, hd, hr⟩ := exists_of_bind_eq_ok h
      obtain ⟨rfl, rfl⟩ := Prod.mk.inj (Except.ok.inj hr)
      obtain ⟨all, stop⟩ := isDigits_of_readDigits hd
      have sign : (exponentSign tail).1 = none ∨ (exponentSign tail).1 = some '-' ∨
          (exponentSign tail).1 = some '+' := by
        fun_cases exponentSign tail <;> simp
      refine ⟨?_, stop, by simp⟩
      rintro e ⟨⟩
      exact ⟨letter, sign, all⟩
    · next letter =>
      obtain ⟨rfl, rfl⟩ := Prod.mk.inj (Except.ok.inj h)
      simpa [stop] using letter

theorem readExponent_append {exponent : Option Exponent} {rest : Text} (reach : Nat)
    (written : ∀ e ∈ exponent, e.IsWritten) (stop : rest.Avoids Char.isDigit)
    (letter : exponent.isNone → rest.Avoids fun c => c == 'e' || c == 'E') :
    readExponent reach ((exponent.map Exponent.spelling).getD [] ++ rest) =
      .ok (exponent, rest) := by
  cases exponent with
  | none =>
    have letter := letter rfl
    cases rest with
    | nil => rfl
    | cons c rest =>
      have hc : ¬(c = 'e' ∨ c = 'E') := by simpa using letter
      simp [readExponent, hc]
  | some e =>
    obtain ⟨letter, sign, digits⟩ := written e rfl
    have hs := exponentSign_digits sign digits rest
    simp [readExponent, Exponent.spelling, letter, hs, readDigits_append _ digits stop, bind,
      Except.bind, pure, Except.pure]

theorem avoids_goesOn_iff {n : Numeral} {rest : Text} :
    rest.Avoids n.goesOn ↔
      rest.Avoids Char.isDigit ∧
      (n.exponent.isNone → rest.Avoids fun c => c == 'e' || c == 'E') ∧
      (n.exponent.isNone → n.fraction.isEmpty → rest.Avoids (· == '.')) := by
  cases rest with
  | nil => simp
  | cons c rest =>
    simp only [Text.avoids_cons, goesOn]
    cases n.exponent.isNone <;> cases n.fraction.isEmpty <;> simp [and_assoc]

theorem readSign_append_of_digits (negative : Bool) {digits : Text} (all : IsDigits digits)
    (rest : Text) :
    readSign (signText negative ++ (digits ++ rest)) = (negative, digits ++ rest) := by
  obtain ⟨some, all⟩ := all
  cases digits with
  | nil => exact absurd rfl some
  | cons d digits =>
    have hd : d.isDigit := all d (by simp)
    have minus : d ≠ '-' := by rintro rfl; simp at hd
    cases negative <;> simp [signText, readSign, minus]

theorem avoids_exponent_append {exponent : Option Exponent} {rest : Text} {stops : Char → Bool}
    (written : ∀ e ∈ exponent, e.IsWritten) (stop : exponent.isNone → rest.Avoids stops)
    (small : stops 'e' = false) (capital : stops 'E' = false) :
    Text.Avoids ((exponent.map Exponent.spelling).getD [] ++ rest) stops := by
  cases exponent with
  | none => exact stop rfl
  | some e =>
    rcases (written e rfl).letter with letter | letter <;>
      simp [Exponent.spelling, letter, small, capital]

theorem avoids_pointed_append (fraction : Text) {rest : Text} (stop : rest.Avoids Char.isDigit) :
    Text.Avoids (pointed fraction ++ rest) Char.isDigit := by
  cases fraction with
  | nil => exact stop
  | cons => rfl

/-- A written number is read wherever it does not go on. -/
theorem read_spelling_append {n : Numeral} {rest : Text} (written : n.IsWritten)
    (stop : rest.Avoids n.goesOn) : read (n.spelling ++ rest) = .ok (n, rest) := by
  obtain ⟨digit, letter, point⟩ := avoids_goesOn_iff.mp stop
  have afterFraction := avoids_exponent_append written.exponent (fun _ => digit) rfl rfl
  have pointAfter (empty : n.fraction.isEmpty) :=
    avoids_exponent_append written.exponent (fun none => point none empty) rfl rfl
  have hs := readSign_append_of_digits n.negative written.whole
    (pointed n.fraction ++ ((n.exponent.map Exponent.spelling).getD [] ++ rest))
  have hw (reach : Nat) := readWhole_append reach written.whole written.zero
    (avoids_pointed_append n.fraction afterFraction)
  have hf (reach : Nat) := readFraction_append reach written.fraction afterFraction pointAfter
  have he (reach : Nat) := readExponent_append reach written.exponent digit letter
  simp only [read, spelling, List.append_assoc, hs, hw, hf, he, bind, Except.bind, pure,
    Except.pure]

theorem isWritten_of_read {text rest : Text} {n : Numeral} (h : read text = .ok (n, rest)) :
    n.IsWritten ∧ rest.Avoids n.goesOn := by
  obtain ⟨⟨whole, r₁⟩, h₁, h⟩ := exists_of_bind_eq_ok h
  obtain ⟨⟨fraction, r₂⟩, h₂, h⟩ := exists_of_bind_eq_ok h
  obtain ⟨⟨exponent, r₃⟩, h₃, h⟩ := exists_of_bind_eq_ok h
  obtain ⟨rfl, rfl⟩ := Prod.mk.inj (Except.ok.inj h)
  obtain ⟨whole, zero, stop⟩ := isDigits_of_readWhole h₁
  obtain ⟨fraction, stop, point⟩ := isDigits_of_readFraction h₂ stop
  obtain ⟨exponent, stop, letter⟩ := isWritten_of_readExponent h₃ stop
  refine ⟨⟨whole, zero, fraction, exponent⟩, avoids_goesOn_iff.mpr ⟨stop, ?_, ?_⟩⟩
  · intro none
    exact (letter none).2
  · intro none empty
    obtain ⟨rfl, -⟩ := letter none
    exact point empty

end Numeral

end FeatureText
