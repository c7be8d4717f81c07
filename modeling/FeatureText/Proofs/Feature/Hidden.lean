import FeatureText.Editor.Features
import FeatureText.Proofs.Feature.Key

/-! Hidden features. A set of keys tells the features of a list apart, so it can be made from flags
and gives the same flags back. -/
namespace FeatureText

namespace HiddenSet

theorem mem_insertKey {key other : FeatureKey} {keys : List FeatureKey} :
    other ∈ insertKey key keys ↔ other = key ∨ other ∈ keys := by
  induction keys with
  | nil => simp [insertKey]
  | cons first keys ih =>
    rw [insertKey]
    split
    · exact List.mem_cons
    · split
      · next same => simp [same]
      · rw [List.mem_cons, ih, List.mem_cons]
        exact or_left_comm

theorem mem_keys_ofKeys {key : FeatureKey} {keys : List FeatureKey} :
    key ∈ (ofKeys keys).keys ↔ key ∈ keys := by
  have all (sorted : List FeatureKey) :
      key ∈ keys.foldl (fun sorted key => insertKey key sorted) sorted ↔
        key ∈ sorted ∨ key ∈ keys := by
    induction keys generalizing sorted with
    | nil => simp
    | cons first keys ih =>
      rw [List.foldl_cons, ih, mem_insertKey, List.mem_cons]
      tauto
  exact (all []).trans (by simp)

theorem mem_toggle {hidden : HiddenSet} {key other : FeatureKey}
    (h : other ∈ (hidden.toggle key).1.keys) : other = key ∨ other ∈ hidden.keys := by
  unfold toggle at h
  split at h
  · exact .inr (List.mem_filter.mp h).1
  · exact mem_insertKey.mp h

theorem contains_iff {hidden : HiddenSet} {key : FeatureKey} :
    hidden.contains key ↔ key ∈ hidden.keys :=
  List.contains_iff_mem

theorem contains_prune {hidden : HiddenSet} {live : List FeatureRange} {key : FeatureKey}
    (h : key ∈ live.map FeatureRange.key) :
    (hidden.prune live).contains key = hidden.contains key := by
  obtain ⟨r, hr, same⟩ := List.mem_map.mp h
  have there : live.any (·.key == key) := List.any_eq_true.mpr ⟨r, hr, beq_iff_eq.mpr same⟩
  rw [Bool.eq_iff_iff, contains_iff, contains_iff, prune, List.mem_filter]
  simp [there]

end HiddenSet

theorem map_mem_filter_zip {keys : List FeatureKey} (distinct : keys.Nodup) {flags : List Bool}
    (length : flags.length = keys.length) :
    (keys.map fun key => decide (key ∈ ((keys.zip flags).filter Prod.snd).map Prod.fst)) =
      flags := by
  induction keys generalizing flags with
  | nil => exact (List.length_eq_zero_iff.mp length).symm
  | cons first keys ih =>
    cases flags with
    | nil => cases length
    | cons flag flags =>
      obtain ⟨new, distinct⟩ := List.nodup_cons.mp distinct
      have inside : ((keys.zip flags).filter Prod.snd).map Prod.fst ⊆ keys := by
        intro key hk
        obtain ⟨pair, hp, rfl⟩ := List.mem_map.mp hk
        exact (List.of_mem_zip (List.mem_filter.mp hp).1).1
      have tail : ∀ key ∈ keys, decide (key ∈
          (((first :: keys).zip (flag :: flags)).filter Prod.snd).map Prod.fst) =
          decide (key ∈ ((keys.zip flags).filter Prod.snd).map Prod.fst) := by
        intro key hk
        have other : key ≠ first := by
          rintro rfl
          exact new hk
        cases flag <;> simp [other]
      rw [List.map_cons, List.map_congr_left tail, ih distinct (Nat.succ.inj length)]
      have absent : first ∉ ((keys.zip flags).filter Prod.snd).map Prod.fst := fun hf =>
        new (inside hf)
      cases flag with
      | true => simp
      | false => simpa using absent

/-- Flags make the set of keys that gives them back. -/
theorem map_contains_flagged (features : List Json) {flags : List Bool}
    (length : flags.length = features.length) :
    (Feature.keys features).map (Editor.flagged features flags).contains = flags := by
  have keys := map_mem_filter_zip (Feature.nodup_keys features) (length.trans (by simp))
  refine Eq.trans (List.map_congr_left fun key _ => ?_) keys
  rw [Bool.eq_iff_iff, HiddenSet.contains_iff, Editor.flagged, HiddenSet.mem_keys_ofKeys,
    decide_eq_true_eq]

namespace Feature

theorem keysAfter_append (seen hashes others : List UInt64) :
    keysAfter seen (hashes ++ others) =
      keysAfter seen hashes ++ keysAfter (hashes.reverse ++ seen) others := by
  induction hashes generalizing seen with
  | nil => rfl
  | cons hash hashes ih => simp [keysAfter, ih]

theorem exists_keys_append (features others : List Json) :
    ∃ new, keys (features ++ others) = keys features ++ new ∧ new.length = others.length ∧
      ∀ key ∈ new, key ∉ keys features := by
  have split : keys (features ++ others) = keys features ++
      keysAfter ((features.map hash).reverse ++ []) (others.map hash) := by
    rw [keys, List.map_append, keysAfter_append, ← keys]
  refine ⟨_, split, by simp, fun key hk there => ?_⟩
  have distinct := nodup_keys (features ++ others)
  rw [split] at distinct
  exact (List.nodup_append.mp distinct).2.2 key there key hk rfl

end Feature

end FeatureText
