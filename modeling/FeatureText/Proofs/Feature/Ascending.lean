import FeatureText.Proofs.Feature.Hidden
import Mathlib.Data.Char
import Mathlib.Data.List.Lex
import Mathlib.Data.List.Sort

/-! Hidden keys in ascending order. Every way to make or change a set of keys keeps them so, and
then nothing but its members tells two sets apart. -/
namespace FeatureText.HiddenSet

def IsAscending (h : HiddenSet) : Prop := h.keys.Pairwise (· < ·)

theorem pairwise_insertKey {keys : List FeatureKey} (h : keys.Pairwise (· < ·))
    (key : FeatureKey) : (insertKey key keys).Pairwise (· < ·) := by
  fun_induction insertKey key keys with
  | case1 => exact List.pairwise_singleton _ _
  | case2 other rest less =>
    refine List.pairwise_cons.mpr ⟨List.forall_mem_cons.mpr ⟨less, fun next hn => ?_⟩, h⟩
    exact lt_trans less ((List.pairwise_cons.mp h).1 next hn)
  | case3 => exact h
  | case4 other rest notLess differs ih =>
    obtain ⟨first, ascending⟩ := List.pairwise_cons.mp h
    have greater : other < key := lt_of_le_of_ne (not_lt.mp notLess) (Ne.symm differs)
    refine List.pairwise_cons.mpr ⟨fun next hn => ?_, ih ascending⟩
    rcases mem_insertKey.mp hn with rfl | hn
    · exact greater
    · exact first next hn

theorem isAscending_ofKeys (keys : List FeatureKey) : (ofKeys keys).IsAscending := by
  have all (sorted : List FeatureKey) (h : sorted.Pairwise (· < ·)) :
      (keys.foldl (fun sorted key => insertKey key sorted) sorted).Pairwise (· < ·) := by
    induction keys generalizing sorted with
    | nil => exact h
    | cons key keys ih => exact ih _ (pairwise_insertKey h key)
  exact all [] .nil

variable {h : HiddenSet}

theorem IsAscending.prune (ascending : h.IsAscending) (live : List FeatureRange) :
    (h.prune live).IsAscending :=
  List.Pairwise.filter _ ascending

theorem IsAscending.toggle (ascending : h.IsAscending) (key : FeatureKey) :
    (h.toggle key).1.IsAscending := by
  unfold HiddenSet.toggle
  split
  · exact List.Pairwise.filter _ ascending
  · exact pairwise_insertKey ascending key

theorem IsAscending.ofKeys_keys (ascending : h.IsAscending) : ofKeys h.keys = h := by
  have keys : (ofKeys h.keys).keys = h.keys :=
    (isAscending_ofKeys h.keys).eq_of_mem_iff ascending fun key => mem_keys_ofKeys
  cases h
  exact congrArg HiddenSet.mk keys

theorem prune_eq_self {live : List FeatureRange}
    (all : ∀ key ∈ h.keys, ∃ r ∈ live, r.key = key) : h.prune live = h := by
  refine congrArg HiddenSet.mk (List.filter_eq_self.mpr fun key hk => ?_)
  obtain ⟨r, hr, same⟩ := all key hk
  exact List.any_eq_true.mpr ⟨r, hr, beq_iff_eq.mpr same⟩

end FeatureText.HiddenSet
