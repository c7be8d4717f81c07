import FeatureText.Proofs.Json.Grammar
import FeatureText.Proofs.Json.Machine

/-! Numbers in their own spelling. Whole numbers of 64 bits read back; what is asked of any other
number is that it does. -/
namespace FeatureText

namespace Numeral

theorem ofDigitChars_ge (digits : Text) (value : Nat) :
    value ≤ Nat.ofDigitChars 10 digits value := by
  rw [Nat.ofDigitChars_eq_ofDigitChars_zero]
  have power : 1 ≤ 10 ^ digits.length := Nat.one_le_pow _ _ (by decide)
  have := Nat.mul_le_mul_right value power
  omega

theorem gather_eq {value : Nat} {digits : Text}
    (h : Nat.ofDigitChars 10 digits value < wordLimit) :
    gather value digits = (Nat.ofDigitChars 10 digits value, 0) := by
  induction digits generalizing value with
  | nil => simp [gather]
  | cons digit digits ih =>
    have step : Nat.ofDigitChars 10 (digit :: digits) value =
        Nat.ofDigitChars 10 digits (value * 10 + digitValue digit) := by
      rw [Nat.ofDigitChars_cons, Nat.mul_comm]
      rfl
    rw [step] at h ⊢
    have fits := Nat.lt_of_le_of_lt (ofDigitChars_ge digits _) h
    simp only [gather, if_pos fits]
    exact ih h

theorem isDigits_toDigits (n : Nat) : IsDigits (Nat.toDigits 10 n) :=
  ⟨Nat.toDigits_ne_nil, fun _ h => Nat.isDigit_of_mem_toDigits (by decide) (by decide) h⟩

theorem toDigits_of_head_eq_zero {n : Nat} (h : (Nat.toDigits 10 n).head? = some '0') :
    Nat.toDigits 10 n = ['0'] := by
  induction n using Nat.strong_induction_on with
  | _ n ih =>
    by_cases small : n < 10
    · rw [Nat.toDigits_of_lt_base small] at h ⊢
      simpa using h
    · rw [Nat.toDigits_of_base_le (by decide) (by omega)] at h
      have front : (Nat.toDigits 10 (n / 10)).head? = some '0' := by
        rwa [List.head?_append_of_ne_nil _ Nat.toDigits_ne_nil] at h
      have zero := congrArg (Nat.ofDigitChars 10 · 0) (ih (n / 10) (by omega) front)
      have : n / 10 = 0 := by simpa [Nat.ofDigitChars_cons] using zero
      omega

def ofInt (value : Int) : Numeral := ⟨value < 0, Nat.toDigits 10 value.natAbs, [], none⟩

theorem isWritten_ofInt (value : Int) : (ofInt value).IsWritten where
  whole := isDigits_toDigits _
  zero := toDigits_of_head_eq_zero
  fraction := by simp [ofInt]
  exponent := by simp [ofInt]

theorem spelling_ofInt (value : Int) : (ofInt value).spelling = (Number.integer value).text := by
  by_cases h : value < 0 <;> simp [spelling, ofInt, signText, pointed, Number.text, h]

theorem value_ofInt {value : Int} (low : -0x8000000000000000 ≤ value)
    (high : value < 0x10000000000000000) : (ofInt value).value = .ok (.integer value) := by
  have fits : value.natAbs < wordLimit := by
    simp only [wordLimit]
    omega
  have all : gather 0 (Nat.toDigits 10 value.natAbs) = (value.natAbs, 0) := by
    rw [gather_eq] <;> rw [Nat.ofDigitChars_ten_toDigits]
    exact fits
  by_cases negative : value < 0
  · have room : 0 < value.natAbs ∧ value.natAbs ≤ 0x8000000000000000 := by omega
    have back : -(value.natAbs : Int) = value := by omega
    have read : (ofInt value).value = .ok (.integer (-(value.natAbs : Int))) := by
      simp [Numeral.value, ofInt, all, negative, room]
    rw [read, back]
  · have back : (value.natAbs : Int) = value := by omega
    have read : (ofInt value).value = .ok (.integer (value.natAbs : Int)) := by
      simp [Numeral.value, ofInt, all, negative]
    rw [read, back]

end Numeral

namespace Number

open Numeral

/-- The spelling of the number is read as the number. -/
def ReadsBack (n : Number) : Prop := Json.parse n.text = .ok (.number n)

def IsReadable (n : Number) : Prop := ∃ m, Json.parse n.text = .ok (.number m)

/-- The number that the spelling of the number is read as. -/
def reread (n : Number) : Number :=
  match Json.parse n.text with
  | .ok (.number m) => m
  | _ => n

theorem ReadsBack.isReadable {n : Number} (h : n.ReadsBack) : n.IsReadable := ⟨n, h⟩

theorem ReadsBack.reread_eq {n : Number} (h : n.ReadsBack) : n.reread = n := by
  unfold ReadsBack at h
  rw [reread, h]

theorem IsReadable.spelled {n : Number} (h : n.IsReadable) :
    Spelled n.text [.scalar (.number n.reread)] := by
  obtain ⟨m, h⟩ := h
  have same : n.reread = m := by rw [reread, h]
  obtain ⟨raw, spelled, -, merged⟩ := Json.parse_eq_ok_iff.mp h
  cases raw with
  | number value =>
    obtain rfl := Json.number.inj merged
    rwa [same]
  | _ => cases merged

theorem readsBack_integer {value : Int} (low : -0x8000000000000000 ≤ value)
    (high : value < 0x10000000000000000) : (integer value).ReadsBack := by
  have spells := Content.Spells.number (Numeral.isWritten_ofInt value)
    (Numeral.value_ofInt low high)
  have spelled := Spelled.content spells (Text.avoids_nil _) .nil
  rw [List.append_nil, Numeral.spelling_ofInt] at spelled
  exact Json.parse_eq_ok_iff.mpr ⟨.number (.integer value), spelled, Nat.zero_le _, rfl⟩

theorem isMark_toDigits (n : Nat) : ∀ c ∈ Nat.toDigits 10 n, isMark c := fun c hc =>
  isMark_of_isDigit ((isDigits_toDigits n).2 c hc)

theorem isMark_zeros (count : Nat) : ∀ c ∈ Decimal.zeros count, isMark c := by
  intro c hc
  rw [List.eq_of_mem_replicate hc]
  rfl

theorem isMark_exponentText (exponent : Int) : ∀ c ∈ Decimal.exponentText exponent, isMark c := by
  have digits := isMark_toDigits exponent.natAbs
  unfold Decimal.exponentText
  split <;> exact List.forall_mem_cons.mpr ⟨rfl, digits⟩

theorem isMark_positional {digits : Text} (h : ∀ c ∈ digits, isMark c) (leading : Int) :
    ∀ c ∈ Decimal.positional digits leading, isMark c := by
  have zeros := isMark_zeros
  have front (count : Nat) : ∀ c ∈ digits.take count, isMark c := fun c hc =>
    h c (List.mem_of_mem_take hc)
  have back (count : Nat) : ∀ c ∈ digits.drop count, isMark c := fun c hc =>
    h c (List.mem_of_mem_drop hc)
  unfold Decimal.positional
  split
  · simp only [List.cons_append, List.forall_mem_cons, List.forall_mem_append]
    exact ⟨rfl, rfl, zeros _, h⟩
  · dsimp only
    split
    · simp only [List.forall_mem_append, List.forall_mem_cons]
      exact ⟨⟨h, zeros _⟩, rfl, rfl, by simp⟩
    · simp only [List.forall_mem_append, List.forall_mem_cons]
      exact ⟨front _, rfl, back _⟩

theorem isMark_scientific {digits : Text} (h : ∀ c ∈ digits, isMark c) (leading : Int) :
    ∀ c ∈ Decimal.scientific digits leading, isMark c := by
  have exponent := isMark_exponentText leading
  unfold Decimal.scientific
  split
  · simp
  · rw [List.forall_mem_cons] at h
    simp only [List.forall_mem_cons]
    exact ⟨h.1, rfl, exponent⟩
  · rw [List.forall_mem_cons] at h
    simp only [List.cons_append, List.forall_mem_cons, List.forall_mem_append]
    exact ⟨h.1, rfl, h.2, rfl, exponent⟩

theorem isMark_floatText (x : Float) : ∀ c ∈ Decimal.floatText x, isMark c := by
  have unsigned (d : Decimal.Scientific) : ∀ c ∈ d.text, isMark c := by
    unfold Decimal.Scientific.text
    dsimp only
    split
    · exact isMark_positional (isMark_toDigits _) _
    · exact isMark_scientific (isMark_toDigits _) _
  have magnitude : ∀ c ∈ (if (Decimal.Binary.ofBits x.toBits).significand = 0 then ['0', '.', '0']
      else (Decimal.shortest (Decimal.Binary.ofBits x.toBits)).text), isMark c := by
    split
    · exact List.all_eq_true.mp rfl
    · exact unsigned _
  unfold Decimal.floatText
  dsimp only
  split
  · exact magnitude
  · exact List.forall_mem_cons.mpr ⟨rfl, magnitude⟩

theorem isMark_text (n : Number) : ∀ c ∈ n.text, isMark c := by
  cases n with
  | integer value =>
    have digits := isMark_toDigits value.natAbs
    unfold text
    dsimp only
    split
    · exact List.forall_mem_cons.mpr ⟨rfl, digits⟩
    · exact digits
  | real value => exact isMark_floatText value

end Number

end FeatureText
