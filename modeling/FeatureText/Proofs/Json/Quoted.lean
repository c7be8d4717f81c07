import FeatureText.Json.Quoted
import Mathlib.Data.List.Basic

/-! String literals. A literal reads the same in front of any text, holds no control characters, and
what is written in quotes reads back. -/
namespace FeatureText

namespace Quoted

theorem push_ok (raw value : Text) (tail : Literal) (rest : Text) :
    push raw value (.ok (tail, rest)) =
      .ok (⟨raw ++ tail.raw, value ++ tail.value⟩, rest) := rfl

theorem read_of_plain {pairs : Bool} {reach : Nat} {c : Char} (rest : Text) (quote : c ≠ '"')
    (backslash : c ≠ '\\') (control : isControl c = false) :
    read pairs none reach (c :: rest) =
      push [c] [c] (read pairs none (reach + c.utf8Size) rest) := by
  rw [read.eq_def]
  split <;> simp_all

theorem read_of_escape {pairs : Bool} {reach : Nat} {letter c : Char} (rest : Text)
    (h : unescape? letter = some c) :
    read pairs none reach ('\\' :: letter :: rest) =
      push ['\\', letter] [c] (read pairs none (reach + 2) rest) := by
  have unit : letter ≠ 'u' := by
    rintro rfl
    simp [unescape?] at h
  simp [read, h]

theorem ne_backslash {c : Char} {text : Text} (last : c = '\\' → text = [] → False)
    (escape : ∀ letter rest, c = '\\' → text = letter :: rest → False) : c ≠ '\\' := by
  intro hc
  cases text with
  | nil => exact last hc rfl
  | cons letter rest => exact escape letter rest hc rfl

/-- A literal reads the same in front of any other text, however much was read before. -/
theorem read_raw_append {pairs : Bool} {leading : Option Nat} {reach : Nat} {text rest : Text}
    {literal : Literal} (h : read pairs leading reach text = .ok (literal, rest)) (start : Nat)
    (other : Text) : read pairs leading start (literal.raw ++ other) = .ok (literal, other) := by
  fun_induction read pairs leading reach text generalizing literal start
  case case3 reach a b c d text raw unit high hunit trailing ih =>
    obtain ⟨tail, hread, rfl⟩ := push_eq_ok h
    simp [raw, read, hunit, trailing, ih hread, push_ok]
  case case6 reach a b c d text raw unit hunit trailing leading ih =>
    obtain ⟨tail, hread, rfl⟩ := push_eq_ok h
    simp [raw, read, hunit, trailing, leading, ih hread, push_ok]
  case case7 reach a b c d text raw unit hunit trailing leading ih =>
    obtain ⟨tail, hread, rfl⟩ := push_eq_ok h
    simp [raw, read, hunit, trailing, leading, ih hread, push_ok]
  case case12 text =>
    obtain ⟨rfl, rfl⟩ := Prod.mk.inj (Except.ok.inj h)
    rfl
  case case14 reach letter text _ c hc ih =>
    obtain ⟨tail, hread, rfl⟩ := push_eq_ok h
    simp [read_of_escape _ hc, ih hread, push_ok]
  case case17 reach c text _ quote last escape control ih =>
    obtain ⟨tail, hread, rfl⟩ := push_eq_ok h
    simp [read_of_plain _ quote (ne_backslash last escape) (by simpa using control), ih hread,
      push_ok]
  all_goals exact absurd h (by simp)

/-- What may stand behind an opening quote, up to the closing one. -/
inductive IsRaw : Text → Prop where
  | close : IsRaw ['"']
  | plain {c : Char} {raw : Text} (quote : c ≠ '"') (backslash : c ≠ '\\')
      (control : isControl c = false) : IsRaw raw → IsRaw (c :: raw)
  | escape {letter : Char} {raw : Text} (control : isControl letter = false) :
      IsRaw raw → IsRaw ('\\' :: letter :: raw)

theorem isRaw_hex {c : Char} {value : Nat} {raw : Text} (h : hexValue? c = some value)
    (ih : IsRaw raw) : IsRaw (c :: raw) := by
  refine .plain ?_ ?_ ?_ ih
  · rintro rfl
    have none : hexValue? '"' = none := by decide
    simp [none] at h
  · rintro rfl
    have none : hexValue? '\\' = none := by decide
    simp [none] at h
  · simp only [hexValue?, Char.isDigit, Char.le_def, UInt32.le_iff_toNat_le, Bool.and_eq_true,
      decide_eq_true_eq, ge_iff_le] at h
    simp only [isControl, decide_eq_false_iff_not, Char.toNat]
    split at h
    · next hc =>
      change 48 ≤ c.val.toNat ∧ c.val.toNat ≤ 57 at hc
      omega
    · split at h
      · next hc =>
        change 97 ≤ c.val.toNat ∧ c.val.toNat ≤ 102 at hc
        omega
      · split at h
        · next hc =>
          change 65 ≤ c.val.toNat ∧ c.val.toNat ≤ 70 at hc
          omega
        · exact absurd h (by simp)

theorem isRaw_unit {a b c d : Char} {unit : Nat} {raw : Text} (h : unit? a b c d = some unit)
    (ih : IsRaw raw) : IsRaw ('\\' :: 'u' :: a :: b :: c :: d :: raw) := by
  obtain ⟨x, ha, h⟩ := Option.bind_eq_some_iff.mp h
  obtain ⟨y, hb, h⟩ := Option.bind_eq_some_iff.mp h
  obtain ⟨z, hc, h⟩ := Option.bind_eq_some_iff.mp h
  obtain ⟨w, hd, h⟩ := Option.bind_eq_some_iff.mp h
  exact .escape rfl (isRaw_hex ha (isRaw_hex hb (isRaw_hex hc (isRaw_hex hd ih))))

theorem isControl_of_unescape {letter c : Char} (h : unescape? letter = some c) :
    isControl letter = false := by
  unfold unescape? at h
  repeat' split at h
  all_goals first
    | (subst letter; rfl)
    | exact absurd h (by simp)

theorem isRaw_of_read {pairs : Bool} {leading : Option Nat} {reach : Nat} {text rest : Text}
    {literal : Literal} (h : read pairs leading reach text = .ok (literal, rest)) :
    IsRaw literal.raw := by
  fun_induction read pairs leading reach text generalizing literal
  case case3 reach a b c d text raw unit high hunit trailing ih =>
    obtain ⟨tail, hread, rfl⟩ := push_eq_ok h
    exact isRaw_unit hunit (ih hread)
  case case6 reach a b c d text raw unit hunit trailing leading ih =>
    obtain ⟨tail, hread, rfl⟩ := push_eq_ok h
    exact isRaw_unit hunit (ih hread)
  case case7 reach a b c d text raw unit hunit trailing leading ih =>
    obtain ⟨tail, hread, rfl⟩ := push_eq_ok h
    exact isRaw_unit hunit (ih hread)
  case case12 text =>
    obtain ⟨rfl, rfl⟩ := Prod.mk.inj (Except.ok.inj h)
    exact .close
  case case14 reach letter text _ c hc ih =>
    obtain ⟨tail, hread, rfl⟩ := push_eq_ok h
    exact .escape (isControl_of_unescape hc) (ih hread)
  case case17 reach c text _ quote last escape control ih =>
    obtain ⟨tail, hread, rfl⟩ := push_eq_ok h
    exact .plain quote (ne_backslash last escape) (by simpa using control) (ih hread)
  all_goals exact absurd h (by simp)

theorem IsRaw.not_isControl {raw : Text} (h : IsRaw raw) : ∀ c ∈ raw, isControl c = false := by
  induction h with
  | close => exact List.forall_mem_singleton.mpr rfl
  | plain _ _ control _ ih =>
    intro d hd
    rcases List.mem_cons.mp hd with rfl | hd
    · exact control
    · exact ih d hd
  | escape control _ ih =>
    intro d hd
    rcases List.mem_cons.mp hd with rfl | hd
    · rfl
    · rcases List.mem_cons.mp hd with rfl | hd
      · exact control
      · exact ih d hd

theorem hexValue_digitChar : ∀ d < 16, hexValue? (Nat.digitChar d) = some d := by decide

theorem read_unit {pairs : Bool} {reach : Nat} {c : Char} (rest : Text)
    (control : isControl c = true) :
    read pairs none reach
        (['\\', 'u', '0', '0', Nat.digitChar (c.toNat / 16), Nat.digitChar (c.toNat % 16)] ++
          rest) =
      push ['\\', 'u', '0', '0', Nat.digitChar (c.toNat / 16), Nat.digitChar (c.toNat % 16)] [c]
        (read pairs none (reach + 6) rest) := by
  have small : c.toNat < 0x20 := by simpa [isControl] using control
  have zero : hexValue? '0' = some 0 := by decide
  have unit : unit? '0' '0' (Nat.digitChar (c.toNat / 16)) (Nat.digitChar (c.toNat % 16)) =
      some c.toNat := by
    simp only [unit?, zero, hexValue_digitChar _ (show c.toNat / 16 < 16 by omega),
      hexValue_digitChar _ (show c.toNat % 16 < 16 by omega), Option.bind_eq_bind,
      Option.bind_some, Option.pure_def, Option.some.injEq]
    omega
  have trailing : isTrailing c.toNat = false := by simp [isTrailing]; omega
  have leading : isLeading c.toNat = false := by simp [isLeading]; omega
  simp [read, unit, trailing, leading]

theorem read_escape_append (pairs : Bool) (reach : Nat) (c : Char) (rest : Text) :
    ∃ next, read pairs none reach (escape c ++ rest) =
      push (escape c) [c] (read pairs none next rest) := by
  unfold escape
  repeat' split
  · next h => subst h; exact ⟨_, read_of_escape rest rfl⟩
  · next h => subst h; exact ⟨_, read_of_escape rest rfl⟩
  · next h => subst h; exact ⟨_, read_of_escape rest rfl⟩
  · next h => subst h; exact ⟨_, read_of_escape rest rfl⟩
  · next h => subst h; exact ⟨_, read_of_escape rest rfl⟩
  · next h => subst h; exact ⟨_, read_of_escape rest rfl⟩
  · next h => subst h; exact ⟨_, read_of_escape rest rfl⟩
  · next control => exact ⟨_, read_unit rest control⟩
  · next quote backslash _ _ _ _ _ control =>
    exact ⟨_, read_of_plain rest quote backslash (by simpa using control)⟩

/-- What is written in quotes is read back. -/
theorem read_flatMap_escape (pairs : Bool) (reach : Nat) (text rest : Text) :
    read pairs none reach (text.flatMap escape ++ '"' :: rest) =
      .ok (⟨text.flatMap escape ++ ['"'], text⟩, rest) := by
  induction text generalizing reach with
  | nil => rfl
  | cons c text ih =>
    obtain ⟨next, h⟩ := read_escape_append pairs reach c (text.flatMap escape ++ '"' :: rest)
    simp [h, ih, push_ok]

end Quoted

end FeatureText
