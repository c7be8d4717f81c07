import FeatureText.Decimal.Layout
import FeatureText.Json.Basic
import FeatureText.Json.Cause

/-! Numbers as they are written. A whole number that fits 64 bits keeps its value. Any other number
is a float, read from as many digits as fit 64 bits unsigned, with one scaling by a power of ten;
the digits behind those only count for the power. -/
namespace FeatureText

structure Exponent where
  letter : Char
  sign : Option Char
  digits : Text
deriving DecidableEq, Repr

namespace Exponent

def isNegative (e : Exponent) : Bool := e.sign == some '-'

def spelling (e : Exponent) : Text := e.letter :: (e.sign.toList ++ e.digits)

end Exponent

structure Numeral where
  negative : Bool
  whole : Text
  fraction : Text
  exponent : Option Exponent
deriving DecidableEq, Repr

namespace Numeral

def signText (negative : Bool) : Text := if negative then ['-'] else []

def pointed : Text → Text
  | [] => []
  | digits => '.' :: digits

def spelling (n : Numeral) : Text :=
  signText n.negative ++ n.whole ++ pointed n.fraction ++
    (n.exponent.map Exponent.spelling).getD []

def wordLimit : Nat := 0x10000000000000000

def exponentLimit : Nat := 0x7FFFFFFF

def digitValue (c : Char) : Nat := c.toNat - 48

/-- Takes digits while the number they make fits a word, and counts the digits that are left. -/
def gather (value : Nat) : Text → Nat × Nat
  | [] => (value, 0)
  | digit :: digits =>
    let next := value * 10 + digitValue digit
    if next < wordLimit then gather next digits else (value, digits.length + 1)

/-- The exponent, or how many of its digits had been read when it passed the limit. -/
def gatherExponent (value count : Nat) : Text → Except Nat Nat
  | [] => .ok value
  | digit :: digits =>
    let next := value * 10 + digitValue digit
    if next ≤ exponentLimit then gatherExponent next (count + 1) digits else .error (count + 1)

def powerOfTen (exponent : Nat) : Float := Float.ofScientific 1 false exponent

def scaled? (significand : Nat) (exponent : Int) : Option Float :=
  let value := Float.ofScientific significand false 0
  let size := exponent.natAbs
  if 0 ≤ exponent then
    if size ≤ 308 then
      let product := value * powerOfTen size
      if product.isInf then none else some product
    else if significand = 0 then some 0
    else none
  else if size ≤ 308 then some (value / powerOfTen size)
  else if size ≤ 616 then some (value / powerOfTen 308 / powerOfTen (size - 308))
  else some 0

def value (n : Numeral) : Except Fault Number :=
  let size := n.spelling.length
  let signed := fun (x : Float) => Number.real (if n.negative then -x else x)
  let scale := fun (significand : Nat) (exponent : Int) =>
    match scaled? significand exponent with
    | some x => .ok (signed x)
    | none => .error ⟨.numberOutOfRange, size⟩
  let (whole, dropped) := gather 0 n.whole
  let (digits, unread) := gather whole n.fraction
  let shift : Int := dropped - (n.fraction.length - unread : Nat)
  match n.exponent with
  | some e =>
    match gatherExponent 0 0 e.digits with
    | .ok exponent => scale digits (if e.isNegative then shift - exponent else shift + exponent)
    | .error count =>
      if digits ≠ 0 ∧ !e.isNegative then
        .error ⟨.numberOutOfRange, size - e.digits.length + count⟩
      else .ok (signed 0)
  | none =>
    if n.fraction ≠ [] ∨ dropped ≠ 0 then scale digits shift
    else if !n.negative then .ok (.integer whole)
    else if 0 < whole ∧ whole ≤ 0x8000000000000000 then .ok (.integer (-whole))
    else scale whole 0

def digitsOf (text : Text) : Text × Text :=
  (text.takeWhile Char.isDigit, text.dropWhile Char.isDigit)

def readWhole (reach : Nat) : Text → Except Fault (Text × Text)
  | [] => .error ⟨.endInValue, reach⟩
  | c :: rest =>
    if c = '0' then
      if (rest.head?.map Char.isDigit).getD false then .error ⟨.invalidNumber, reach + 2⟩
      else .ok (['0'], rest)
    else if c.isDigit then .ok (c :: (digitsOf rest).1, (digitsOf rest).2)
    else .error ⟨.invalidNumber, reach + 1⟩

def readDigits (reach : Nat) (text : Text) : Except Fault (Text × Text) :=
  match text with
  | [] => .error ⟨.endInValue, reach⟩
  | c :: rest =>
    if c.isDigit then .ok (c :: (digitsOf rest).1, (digitsOf rest).2)
    else .error ⟨.invalidNumber, reach + 1⟩

def readFraction (reach : Nat) : Text → Except Fault (Text × Text)
  | '.' :: rest => readDigits (reach + 1) rest
  | text => .ok ([], text)

def exponentSign : Text → Option Char × Text
  | '-' :: rest => (some '-', rest)
  | '+' :: rest => (some '+', rest)
  | text => (none, text)

def readExponent (reach : Nat) : Text → Except Fault (Option Exponent × Text)
  | [] => .ok (none, [])
  | c :: rest =>
    if c = 'e' ∨ c = 'E' then do
      let sign := exponentSign rest
      let (digits, rest) ← readDigits (reach + 1 + sign.1.toList.length) sign.2
      return (some ⟨c, sign.1, digits⟩, rest)
    else .ok (none, c :: rest)

def readSign : Text → Bool × Text
  | '-' :: rest => (true, rest)
  | text => (false, text)

/-- Reads the longest number at the front. -/
def read (text : Text) : Except Fault (Numeral × Text) := do
  let sign := readSign text
  let reach := (signText sign.1).length
  let (whole, rest) ← readWhole reach sign.2
  let reach := reach + whole.length
  let (fraction, rest) ← readFraction reach rest
  let (exponent, rest) ← readExponent (reach + (pointed fraction).length) rest
  return (⟨sign.1, whole, fraction, exponent⟩, rest)

theorem digitsOf_append (text : Text) : (digitsOf text).1 ++ (digitsOf text).2 = text :=
  List.takeWhile_append_dropWhile

theorem append_of_readWhole {reach : Nat} {text digits rest : Text}
    (h : readWhole reach text = .ok (digits, rest)) : digits ++ rest = text ∧ digits ≠ [] := by
  fun_cases readWhole reach text <;> grind [readWhole, digitsOf_append]

theorem append_of_readDigits {reach : Nat} {text digits rest : Text}
    (h : readDigits reach text = .ok (digits, rest)) : digits ++ rest = text ∧ digits ≠ [] := by
  fun_cases readDigits reach text <;> grind [readDigits, digitsOf_append]

theorem append_of_readFraction {reach : Nat} {text digits rest : Text}
    (h : readFraction reach text = .ok (digits, rest)) : pointed digits ++ rest = text := by
  unfold readFraction at h
  split at h
  · obtain ⟨rfl, hd⟩ := append_of_readDigits h
    cases digits with
    | nil => exact absurd rfl hd
    | cons => rfl
  · obtain ⟨rfl, rfl⟩ := Prod.mk.inj (Except.ok.inj h)
    rfl

theorem exponentSign_append (text : Text) :
    (exponentSign text).1.toList ++ (exponentSign text).2 = text := by
  fun_cases exponentSign text <;> rfl

theorem append_of_readExponent {reach : Nat} {text rest : Text} {exponent : Option Exponent}
    (h : readExponent reach text = .ok (exponent, rest)) :
    (exponent.map Exponent.spelling).getD [] ++ rest = text := by
  unfold readExponent at h
  split at h
  · obtain ⟨rfl, rfl⟩ := Prod.mk.inj (Except.ok.inj h)
    rfl
  · next c tail =>
    split at h
    · obtain ⟨⟨digits, left⟩, hd, hr⟩ := exists_of_bind_eq_ok h
      obtain ⟨rfl, rfl⟩ := Prod.mk.inj (Except.ok.inj hr)
      simp [Exponent.spelling, (append_of_readDigits hd).1, exponentSign_append]
    · obtain ⟨rfl, rfl⟩ := Prod.mk.inj (Except.ok.inj h)
      rfl

theorem readSign_append (text : Text) : signText (readSign text).1 ++ (readSign text).2 = text := by
  fun_cases readSign text <;> rfl

theorem append_of_read {text rest : Text} {n : Numeral} (h : read text = .ok (n, rest)) :
    n.spelling ++ rest = text ∧ n.whole ≠ [] := by
  obtain ⟨⟨whole, r₁⟩, h₁, h⟩ := exists_of_bind_eq_ok h
  obtain ⟨⟨fraction, r₂⟩, h₂, h⟩ := exists_of_bind_eq_ok h
  obtain ⟨⟨exponent, r₃⟩, h₃, h⟩ := exists_of_bind_eq_ok h
  obtain ⟨rfl, rfl⟩ := Prod.mk.inj (Except.ok.inj h)
  obtain ⟨hw, hne⟩ := append_of_readWhole h₁
  have hf := append_of_readFraction h₂
  have he := append_of_readExponent h₃
  refine ⟨?_, hne⟩
  simp [spelling, he, hf, hw, readSign_append]

theorem spelling_ne_nil {n : Numeral} (h : n.whole ≠ []) : n.spelling ≠ [] := by
  simp [spelling, h]

end Numeral

def Number.text : Number → Text
  | .integer value =>
    if value < 0 then '-' :: Nat.toDigits 10 value.natAbs else Nat.toDigits 10 value.natAbs
  | .real value => Decimal.floatText value

end FeatureText
