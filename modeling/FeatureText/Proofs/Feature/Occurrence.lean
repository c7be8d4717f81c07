import FeatureText.Proofs.Feature.Hidden
import FeatureText.Proofs.Json.Parts

/-! Occurrences. The key of an item counts all items in front of it with the same hash, and the key
of a range counts only the objects among them; the two differ exactly where some other value has
that hash. -/
namespace FeatureText

section Filter

variable {α : Type} {p : α → Bool} {items : List α} {place : Nat} {a : α}

theorem take_countP_filter (p : α → Bool) (items : List α) (place : Nat) :
    (items.filter p).take ((items.take place).countP p) = (items.take place).filter p := by
  calc
    (items.filter p).take ((items.take place).countP p) =
        ((items.take place).filter p ++ (items.drop place).filter p).take
          ((items.take place).countP p) := by
      rw [← List.filter_append, List.take_append_drop]
    _ = (items.take place).filter p := by rw [List.countP_eq_length_filter, List.take_left]

theorem getElem?_countP_filter (there : items[place]? = some a) (fits : p a) :
    (items.filter p)[(items.take place).countP p]? = some a := by
  induction items generalizing place with
  | nil => cases there
  | cons first items ih =>
    cases place with
    | zero =>
      obtain rfl : first = a := Option.some.inj there
      simp [fits]
    | succ place =>
      have found := ih there
      cases hf : p first <;> simpa [hf] using found

theorem exists_of_getElem?_filter {number : Nat} (there : (items.filter p)[number]? = some a) :
    ∃ place, items[place]? = some a ∧ p a ∧ (items.take place).countP p = number := by
  induction items generalizing number with
  | nil => cases there
  | cons first items ih =>
    cases fits : p first with
    | false =>
      rw [List.filter_cons_of_neg (by simp [fits])] at there
      obtain ⟨place, found, ha, count⟩ := ih there
      exact ⟨place + 1, found, ha, by simp [fits, count]⟩
    | true =>
      rw [List.filter_cons_of_pos fits] at there
      cases number with
      | zero =>
        obtain rfl : first = a := Option.some.inj there
        exact ⟨0, rfl, fits, rfl⟩
      | succ number =>
        obtain ⟨place, found, ha, count⟩ := ih there
        exact ⟨place + 1, found, ha, by simp [fits, count]⟩

end Filter

namespace Feature

def occurrence (before : List Json) (feature : Json) : Nat :=
  (before.map hash).count (hash feature)

theorem getElem?_keysAfter (seen : List UInt64) {hashes : List UInt64} {place : Nat} {h : UInt64}
    (there : hashes[place]? = some h) :
    (keysAfter seen hashes)[place]? =
      some (key h (seen.count h + (hashes.take place).count h)) := by
  induction hashes generalizing seen place with
  | nil => cases there
  | cons first hashes ih =>
    cases place with
    | zero =>
      obtain rfl : first = h := Option.some.inj there
      simp [keysAfter]
    | succ place =>
      have found := ih (first :: seen) there
      rw [List.count_cons] at found
      rw [keysAfter, List.getElem?_cons_succ, found, List.take_succ_cons, List.count_cons,
        Nat.add_right_comm, Nat.add_assoc]

/-- A feature's key numbers it among those in front of it. -/
theorem getElem?_keys {features : List Json} {place : Nat} {feature : Json}
    (there : features[place]? = some feature) :
    (keys features)[place]? =
      some (key (hash feature) (occurrence (features.take place) feature)) := by
  have hashed : (features.map hash)[place]? = some (hash feature) := by simp [there]
  have found := getElem?_keysAfter [] hashed
  rwa [List.count_nil, Nat.zero_add, ← List.map_take] at found

/-- The number of an object among the objects only. -/
def ownOccurrence (before : List Json) (feature : Json) : Nat :=
  occurrence (before.filter Json.isObject) feature

theorem getElem?_keys_filter {items : List Json} {place : Nat} {object : Json}
    (there : items[place]? = some object) (fits : object.isObject) :
    (keys (items.filter Json.isObject))[(items.take place).countP Json.isObject]? =
      some (key (hash object) (ownOccurrence (items.take place) object)) := by
  rw [getElem?_keys (getElem?_countP_filter there fits), take_countP_filter]
  rfl

theorem ownOccurrence_le (before : List Json) (feature : Json) :
    ownOccurrence before feature ≤ occurrence before feature :=
  (List.filter_sublist.map hash).count_le _

/-- Other values with the same hash are counted with all items and not with the objects. -/
theorem ownOccurrence_lt_iff {before : List Json} {feature : Json} :
    ownOccurrence before feature < occurrence before feature ↔
      ∃ value ∈ before, value.isObject = false ∧ hash value = hash feature := by
  induction before with
  | nil => simp [ownOccurrence, occurrence]
  | cons first before ih =>
    have le := ownOccurrence_le before feature
    rw [List.exists_mem_cons_iff, ← ih]
    unfold ownOccurrence occurrence at le ⊢
    cases object : first.isObject <;> by_cases same : hash first = hash feature <;>
      simp [object, same]
    omega

theorem ownOccurrence_lt {items : List Json} {place later : Nat} {object : Json}
    (there : items[place]? = some object) (fits : object.isObject) (behind : place < later)
    {feature : Json} (same : hash object = hash feature) :
    ownOccurrence (items.take place) feature < ownOccurrence (items.take later) feature := by
  have next : items.take (place + 1) = items.take place ++ [object] := by
    rw [List.take_add_one, there, Option.toList_some]
  have counted : ownOccurrence (items.take (place + 1)) feature =
      ownOccurrence (items.take place) feature + 1 := by
    simp [next, ownOccurrence, occurrence, fits, same]
  have grows : ownOccurrence (items.take (place + 1)) feature ≤
      ownOccurrence (items.take later) feature :=
    (((List.take_prefix_take_left behind).sublist.filter _).map hash).count_le _
  omega

end Feature

end FeatureText
