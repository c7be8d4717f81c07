import FeatureText.Feature.Key
import Mathlib.Algebra.Group.Nat.Defs
import Mathlib.Data.List.Basic

/-! Keys of features. Hash and occurrence can be read from a key, so no two features of a list have
the same one. -/
namespace FeatureText.Feature

theorem digitChar_inj : ∀ a < 16, ∀ b < 16, Nat.digitChar a = Nat.digitChar b → a = b := by decide

@[simp] theorem length_hexText (hash : UInt64) : (hexText hash).length = 16 := by simp [hexText]

theorem mod_eq_of_digits {base a b : Nat} (places : Nat)
    (h : ∀ place < places, a / base ^ place % base = b / base ^ place % base) :
    a % base ^ places = b % base ^ places := by
  induction places with
  | zero => simp [Nat.mod_one]
  | succ places ih =>
    rw [Nat.mod_pow_succ, Nat.mod_pow_succ, h places (Nat.lt_succ_self _),
      ih fun place hp => h place (Nat.lt_succ_of_lt hp)]

theorem hexText_injective {a b : UInt64} (h : hexText a = hexText b) : a = b := by
  have digits : ∀ place < 16, a.toNat / 16 ^ place % 16 = b.toNat / 16 ^ place % 16 := by
    intro place hp
    have same := List.map_inj_left.mp h place (by simpa using hp)
    exact digitChar_inj _ (Nat.mod_lt _ (by decide)) _ (Nat.mod_lt _ (by decide)) same
  have agree := mod_eq_of_digits 16 digits
  have ha : a.toNat < 16 ^ 16 := a.toNat_lt
  have hb : b.toNat < 16 ^ 16 := b.toNat_lt
  rw [Nat.mod_eq_of_lt ha, Nat.mod_eq_of_lt hb] at agree
  exact UInt64.toNat_inj.mp agree

theorem key_injective {a b : UInt64} {m n : Nat} (h : key a m = key b n) : a = b ∧ m = n := by
  obtain ⟨hash, count⟩ := List.append_inj h (by simp)
  have digits := congrArg (Nat.ofDigitChars 10 · 0) (List.cons.inj count).2
  simp only [Nat.ofDigitChars_ten_toDigits] at digits
  exact ⟨hexText_injective hash, digits⟩

/-- Occurrences are counted on from those seen before. -/
theorem exists_key_of_mem_keysAfter {seen hashes : List UInt64} {k : FeatureKey}
    (h : k ∈ keysAfter seen hashes) : ∃ hash n, k = key hash n ∧ seen.count hash ≤ n := by
  induction hashes generalizing seen with
  | nil => cases h
  | cons hash rest ih =>
    rcases List.mem_cons.mp h with rfl | h
    · exact ⟨hash, _, rfl, Nat.le_refl _⟩
    · obtain ⟨other, n, rfl, le⟩ := ih h
      exact ⟨other, n, rfl, Nat.le_trans List.count_le_count_cons le⟩

theorem nodup_keysAfter (seen hashes : List UInt64) : (keysAfter seen hashes).Nodup := by
  induction hashes generalizing seen with
  | nil => exact List.nodup_nil
  | cons hash rest ih =>
    refine List.nodup_cons.mpr ⟨?_, ih (hash :: seen)⟩
    intro again
    obtain ⟨other, n, same, le⟩ := exists_key_of_mem_keysAfter again
    obtain ⟨rfl, rfl⟩ := key_injective same
    rw [List.count_cons_self] at le
    omega

theorem nodup_keys (features : List Json) : (keys features).Nodup := nodup_keysAfter [] _

end FeatureText.Feature
