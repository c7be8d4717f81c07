import FeatureText.Digest.Stream
import FeatureText.Proofs.Json.Parts
import Mathlib.Data.Char
import Mathlib.Data.List.Forall2
import Mathlib.Data.List.Lex
import Mathlib.Data.List.Nodup

/-! Equality of content. Members come in one order once they are sorted by distinct names, so what
is digested of a value depends on its content only. -/
namespace FeatureText

/-- Members are compared by name, in whatever order they stand, and numbers as they are printed. -/
inductive Json.SameContent : Json → Json → Prop
  | null : SameContent .null .null
  | bool (value : Bool) : SameContent (.bool value) (.bool value)
  | number {n m : Number} (h : n.text = m.text) : SameContent (.number n) (.number m)
  | text (value : Text) : SameContent (.text value) (.text value)
  | array {values others : List Json} (h : List.Forall₂ SameContent values others) :
    SameContent (.array values) (.array others)
  | object {members others : List (Text × Json)}
    (h : ∀ name, Option.Rel SameContent (members.lookup name) (others.lookup name)) :
    SameContent (.object members) (.object others)

namespace Digest

section Sorting

variable {α β : Type} {member : Text × α} {members others : List (Text × α)}

theorem insertByName_perm (member : Text × α) (members : List (Text × α)) :
    (insertByName member members).Perm (member :: members) := by
  induction members with
  | nil => rfl
  | cons other rest ih =>
    rw [insertByName]
    split
    · rfl
    · exact (ih.cons other).trans (.swap member other rest)

theorem sortByName_perm (members : List (Text × α)) : (sortByName members).Perm members := by
  induction members with
  | nil => rfl
  | cons member members ih => exact (insertByName_perm member _).trans (ih.cons member)

theorem insertByName_map (f : α → β) (member : Text × α) (members : List (Text × α)) :
    insertByName (member.map id f) (members.map (Prod.map id f)) =
      (insertByName member members).map (Prod.map id f) := by
  induction members with
  | nil => rfl
  | cons other rest ih =>
    simp only [List.map_cons, insertByName, Prod.map_fst, id_eq, ih]
    split <;> rfl

theorem sortByName_map (f : α → β) (members : List (Text × α)) :
    sortByName (members.map (Prod.map id f)) = (sortByName members).map (Prod.map id f) := by
  induction members with
  | nil => rfl
  | cons member members ih =>
    rw [List.map_cons, sortByName, List.foldr_cons, ← sortByName, ih, insertByName_map]
    rfl

def IsSorted (members : List (Text × α)) : Prop := members.Pairwise fun a b => a.1 < b.1

theorem IsSorted.insertByName (h : IsSorted members) (new : member.1 ∉ members.map Prod.fst) :
    IsSorted (insertByName member members) := by
  induction members with
  | nil => exact List.pairwise_singleton _ _
  | cons other rest ih =>
    obtain ⟨before, sorted⟩ := List.pairwise_cons.mp h
    rw [List.map_cons, List.mem_cons, not_or] at new
    rw [Digest.insertByName]
    split
    · next lt =>
      refine List.pairwise_cons.mpr ⟨?_, h⟩
      exact List.forall_mem_cons.mpr ⟨lt, fun last hl => lt.trans (before last hl)⟩
    · next le =>
      refine List.pairwise_cons.mpr ⟨?_, ih sorted new.2⟩
      intro last hl
      rcases List.mem_cons.mp ((insertByName_perm member rest).mem_iff.mp hl) with rfl | hl
      · exact lt_of_le_of_ne (not_lt.mp le) (Ne.symm new.1)
      · exact before last hl

theorem isSorted_sortByName (distinct : (members.map Prod.fst).Nodup) :
    IsSorted (sortByName members) := by
  induction members with
  | nil => exact .nil
  | cons member members ih =>
    obtain ⟨new, distinct⟩ := List.nodup_cons.mp distinct
    apply (ih distinct).insertByName
    rwa [((sortByName_perm members).map Prod.fst).mem_iff]

theorem IsSorted.nodup (h : IsSorted members) : (members.map Prod.fst).Nodup :=
  List.pairwise_map.mpr (h.imp ne_of_lt)

theorem lookup_eq_some_iff_mem {name : Text} {value : α}
    (distinct : (members.map Prod.fst).Nodup) :
    members.lookup name = some value ↔ (name, value) ∈ members := by
  induction members with
  | nil => simp
  | cons member members ih =>
    obtain ⟨other, old⟩ := member
    obtain ⟨new, distinct⟩ := List.nodup_cons.mp distinct
    rw [List.lookup_cons, List.mem_cons, Prod.mk.injEq]
    by_cases same : name = other
    · have notMem : (name, value) ∉ members := by
        intro there
        exact new (List.mem_map.mpr ⟨_, there, same⟩)
      simp [same, same ▸ notMem, eq_comm]
    · simp [same, beq_false_of_ne same, ih distinct]

theorem lookup_sortByName (distinct : (members.map Prod.fst).Nodup) (name : Text) :
    (sortByName members).lookup name = members.lookup name := by
  ext value
  rw [lookup_eq_some_iff_mem (isSorted_sortByName distinct).nodup, lookup_eq_some_iff_mem distinct,
    (sortByName_perm members).mem_iff]

theorem sortByName_eq_of_lookup (hm : (members.map Prod.fst).Nodup)
    (ho : (others.map Prod.fst).Nodup)
    (h : ∀ name, members.lookup name = others.lookup name) :
    sortByName members = sortByName others := by
  have perm : members.Perm others := by
    apply (List.perm_ext_iff_of_nodup (hm.of_map _) (ho.of_map _)).mpr
    intro member
    rw [← lookup_eq_some_iff_mem hm, ← lookup_eq_some_iff_mem ho, h]
  have sorted : (sortByName members).Perm (sortByName others) :=
    (sortByName_perm members).trans (perm.trans (sortByName_perm others).symm)
  apply sorted.eq_of_pairwise _ (isSorted_sortByName hm) (isSorted_sortByName ho)
  intro a b _ _ ab ba
  exact absurd ab (lt_asymm ba)

theorem lookup_map (f : α → β) (members : List (Text × α)) (name : Text) :
    (members.map (Prod.map id f)).lookup name = (members.lookup name).map f := by
  induction members with
  | nil => rfl
  | cons member members ih =>
    obtain ⟨other, value⟩ := member
    simp only [List.map_cons, Prod.map, id_eq, List.lookup_cons, ih]
    split <;> rfl

theorem map_fst_map (f : α → β) (members : List (Text × α)) :
    (members.map (Prod.map id f)).map Prod.fst = members.map Prod.fst := by
  simp [Function.comp_def]

end Sorting

theorem itemsOfAll_eq_flatMap (values : List Json) : itemsOfAll values = values.flatMap items := by
  induction values with
  | nil => rfl
  | cons value values ih => rw [itemsOfAll, ih, List.flatMap_cons]

theorem itemsOfMembers_eq_map (members : List (Text × Json)) :
    itemsOfMembers members = members.map (Prod.map id items) := by
  induction members with
  | nil => rfl
  | cons member members ih =>
    rw [itemsOfMembers, ih]
    rfl

theorem items_array (values : List Json) :
    items (.array values) = .kind 4 :: .count values.length :: values.flatMap items := by
  rw [items, itemsOfAll_eq_flatMap]

theorem items_object (members : List (Text × Json)) :
    items (.object members) = .kind 5 :: .count members.length ::
      (sortByName members).flatMap fun member => .text member.1 :: items member.2 := by
  rw [items, itemsOfMembers_eq_map, sortByName_map, List.flatMap_map]
  rfl

theorem map_eq_of_forall₂ {α β : Type} {r : α → α → Prop} {f : α → β} {values others : List α}
    (h : List.Forall₂ r values others)
    (same : ∀ value ∈ values, ∀ other ∈ others, r value other → f value = f other) :
    values.map f = others.map f := by
  induction h with
  | nil => rfl
  | cons first _ ih =>
    simp only [List.forall_mem_cons] at same
    rw [List.map_cons, List.map_cons, same.1.1 first, ih fun value hv => (same.2 value hv).2]

theorem map_eq_of_rel {α β : Type} {r : α → α → Prop} {f : α → β} {x y : Option α}
    (h : Option.Rel r x y) (same : ∀ value ∈ x, ∀ other ∈ y, r value other → f value = f other) :
    x.map f = y.map f := by
  cases h with
  | none => rfl
  | some h => rw [Option.map_some, Option.map_some, same _ rfl _ rfl h]

/-- What is digested of a value depends on its content only. -/
theorem items_eq_of_sameContent {a b : Json} (ha : a.HasDistinctNames) (hb : b.HasDistinctNames)
    (h : a.SameContent b) : items a = items b := by
  induction a using Json.induct generalizing b with
  | null | bool | text => cases h; rfl
  | number =>
    cases h with
    | number same => rw [items, items, same]
  | array values ih =>
    cases h with
    | @array _ others each =>
      rw [Json.hasDistinctNames_array_iff] at ha hb
      have same : values.map items = others.map items :=
        map_eq_of_forall₂ each fun value hv other ho => ih value hv (ha value hv) (hb other ho)
      rw [items_array, items_array, each.length_eq, List.flatMap_def, same, ← List.flatMap_def]
  | object members ih =>
    cases h with
    | @object _ others each =>
      obtain ⟨hm, ha⟩ := Json.hasDistinctNames_object_iff.mp ha
      obtain ⟨ho, hb⟩ := Json.hasDistinctNames_object_iff.mp hb
      have same : sortByName (itemsOfMembers members) = sortByName (itemsOfMembers others) := by
        rw [itemsOfMembers_eq_map, itemsOfMembers_eq_map]
        apply sortByName_eq_of_lookup (by rwa [map_fst_map]) (by rwa [map_fst_map])
        intro name
        rw [lookup_map, lookup_map]
        apply map_eq_of_rel (each name)
        intro value hv other ho'
        have hv := (lookup_eq_some_iff_mem hm).mp hv
        have ho' := (lookup_eq_some_iff_mem ho).mp ho'
        exact ih _ hv (ha _ hv) (hb _ ho')
      have length := congrArg List.length same
      rw [(sortByName_perm _).length_eq, (sortByName_perm _).length_eq, itemsOfMembers_eq_map,
        itemsOfMembers_eq_map, List.length_map, List.length_map] at length
      rw [items, items, same, length]

end Digest

end FeatureText
