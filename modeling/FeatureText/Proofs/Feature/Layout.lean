import FeatureText.Feature.Layout
import FeatureText.Proofs.Json.Deep

/-! The text of a feature list. It is readable exactly if it spells out values with commas between
them; the brackets put around it for reading make no difference. -/
namespace FeatureText

open Content Lexeme

def listed (items : List Json) : List Content := [.comma].intercalate (items.map Json.contents)

def trailed (items : List Json) : List Content :=
  items.flatMap fun item => [.comma] ++ item.contents

theorem listed_cons (item : Json) (items : List Json) :
    listed (item :: items) = item.contents ++ trailed items := by
  rw [listed, List.map_cons, intercalate_cons, List.flatMap_map]
  rfl

theorem listed_append {items : List Json} (filled : items ≠ []) (others : List Json) :
    listed (items ++ others) = listed items ++ trailed others := by
  obtain ⟨first, items, rfl⟩ := List.exists_cons_of_ne_nil filled
  rw [List.cons_append, listed_cons, listed_cons, trailed, List.flatMap_append, List.append_assoc]
  rfl

def leading (items : List Json) : List Content :=
  items.flatMap fun item => item.contents ++ [.comma]

theorem trailed_of_ne_nil {items : List Json} (filled : items ≠ []) :
    trailed items = .comma :: listed items := by
  obtain ⟨item, items, rfl⟩ := List.exists_cons_of_ne_nil filled
  rw [listed_cons]
  rfl

theorem leading_append_listed (items : List Json) {others : List Json} (filled : others ≠ []) :
    leading items ++ listed others = listed (items ++ others) := by
  induction items with
  | nil => rfl
  | cons item items ih =>
    rw [leading, List.flatMap_cons, ← leading, List.append_assoc, ih, List.cons_append, listed_cons,
      trailed_of_ne_nil (by simp [filled]), List.append_assoc]
    rfl

theorem leading_of_ne_nil {items : List Json} (filled : items ≠ []) :
    leading items = listed items ++ [.comma] := by
  induction items with
  | nil => exact absurd rfl filled
  | cons item items ih =>
    rw [leading, List.flatMap_cons, ← leading, listed_cons]
    cases items with
    | nil => simp [leading, trailed]
    | cons next items => simp [ih, trailed_of_ne_nil]

theorem trailed_cons (item : Json) (items : List Json) :
    trailed (item :: items) = .comma :: listed (item :: items) :=
  trailed_of_ne_nil (List.cons_ne_nil _ _)

namespace Spelled

theorem enclosed_iff {text : Text} {contents : List Content} :
    Spelled (enclosed text) (.opening .square :: (contents ++ [.closing .square])) ↔
      Spelled text contents := by
  constructor
  · intro h
    obtain ⟨blank, rest, ht, all, h⟩ := exists_of_cons_opening h
    have none : blank = [] := by
      cases blank with
      | nil => rfl
      | cons c blank =>
        obtain ⟨rfl, -⟩ := List.cons.inj ht
        exact absurd (all '[' (by simp)) (by decide)
    subst none
    obtain ⟨-, rfl⟩ := List.cons.inj ht
    obtain ⟨front, back, hc, hf, hb⟩ := split_newline (of_blank rfl h)
    have : back = [.closing .square] :=
      hb.contentsOf_eq.symm.trans (closing .square .nil).contentsOf_eq
    rwa [(List.append_inj' hc (by simp [this])).1]
  · intro h
    have inner : Spelled (text ++ ['\n', ']']) (contents ++ [.closing .square]) :=
      h.append (.blank rfl (closing .square .nil)) rfl
    exact opening .square (.blank rfl inner)

theorem head_of_enclosed {text : Text} {contents : List Content}
    (h : Spelled (enclosed text) contents) : contents.head? = some (.opening .square) := by
  rw [← h.contentsOf_eq, enclosed, List.cons_append, contentsOf_cons rfl]
  rfl

end Spelled

theorem exists_eq_array {raw : Json} (h : raw.contents.head? = some (.opening .square)) :
    ∃ items, raw = .array items := by
  cases raw with
  | array items => exact ⟨items, rfl⟩
  | _ => cases h

/-- A text is a readable feature list exactly if it spells out values that are not too deep. -/
theorem parseFeatures_eq_ok_iff {text : Text} {items : List Json} :
    parseFeatures text = .ok items ↔
      ∃ raws : List Json, Spelled text (listed raws) ∧
        (∀ raw ∈ raws, raw.depth < Stage.depthLimit) ∧ raws.map Json.merged = items := by
  unfold parseFeatures
  constructor
  · intro h
    cases hp : Json.parse (enclosed text) with
    | error refusal => simp [hp] at h
    | ok value =>
      obtain ⟨raw, spelled, room, rfl⟩ := Json.parse_eq_ok_iff.mp hp
      obtain ⟨raws, rfl⟩ := exists_eq_array spelled.head_of_enclosed
      rw [Json.contents, Json.contentsOfItems_eq_map] at spelled
      refine ⟨raws, Spelled.enclosed_iff.mp spelled, ?_, ?_⟩
      · intro raw hr
        have := Json.depthOfItems_le_iff.mp (Nat.le_refl _) raw hr
        simp only [Json.depth] at room
        omega
      · simpa [hp, Json.merged, Json.mergedItems_eq_map, Json.items?] using h
  · rintro ⟨raws, spelled, room, rfl⟩
    have hp : Json.parse (enclosed text) = .ok (Json.array raws).merged := by
      refine Json.parse_eq_ok_iff.mpr ⟨.array raws, ?_, ?_, rfl⟩
      · rw [Json.contents, Json.contentsOfItems_eq_map]
        exact Spelled.enclosed_iff.mpr spelled
      · have inner : Json.depthOfItems raws ≤ Stage.depthLimit - 1 :=
          Json.depthOfItems_le_iff.mpr fun raw hr => Nat.le_sub_one_of_lt (room raw hr)
        simp only [Json.depth, Stage.depthLimit] at inner ⊢
        omega
    simp [hp, Json.merged, Json.mergedItems_eq_map, Json.items?]

/-- The brackets around the list count, so an item as deep as a value may be is too deep in it. -/
theorem exists_parseFeatures_eq_error {text : Text} {raws : List Json}
    (spelled : Spelled text (listed raws)) (deep : ∃ raw ∈ raws, Stage.depthLimit ≤ raw.depth) :
    ∃ place, parseFeatures text = .error ⟨.tooDeep, place⟩ := by
  have whole : Spelled (enclosed text) (Json.array raws).contents := by
    rw [Json.contents, Json.contentsOfItems_eq_map]
    exact Spelled.enclosed_iff.mpr spelled
  obtain ⟨raw, hr, deep⟩ := deep
  have inside := Json.depthOfItems_le_iff.mp (Nat.le_refl _) raw hr
  obtain ⟨offset, refused⟩ := Json.exists_parse_eq_error whole
    (Nat.lt_succ_of_le (deep.trans inside))
  exact ⟨placeIn text offset, by rw [parseFeatures, refused]⟩

end FeatureText
