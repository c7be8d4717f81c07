import FeatureText.Bracket.Balance
import FeatureText.Outline.Tree
import FeatureText.Proofs.Json.Grammar

/-! Words whose brackets are nested. Readers that follow brackets pass over such a word as if it
were not there, and the contents of a value are one. -/
namespace FeatureText

namespace Bracket

inductive Side where
  | opening (bracket : Bracket)
  | closing (bracket : Bracket)
deriving DecidableEq, Repr

/-- Brackets that open are closed by their kind, the last opened first. -/
inductive Nested {α : Type} (side : α → Option Side) : List α → Prop where
  | nil : Nested side []
  | other {a : α} {rest : List α} (h : side a = none) : Nested side rest → Nested side (a :: rest)
  | nest {a z : α} {inner rest : List α} (bracket : Bracket)
      (ha : side a = some (.opening bracket)) (hz : side z = some (.closing bracket)) :
      Nested side inner → Nested side rest → Nested side (a :: (inner ++ z :: rest))

variable {α β : Type} {side : α → Option Side} {other : β → Option Side}

theorem Nested.append {left right : List α} (hl : Nested side left) (hr : Nested side right) :
    Nested side (left ++ right) := by
  induction hl with
  | nil => exact hr
  | other h _ ih => exact .other h ih
  | nest bracket ha hz inner _ _ ih =>
    rw [List.cons_append, List.append_assoc, List.cons_append]
    exact .nest bracket ha hz inner ih

theorem Nested.of_none {word : List α} (h : ∀ a ∈ word, side a = none) : Nested side word := by
  induction word with
  | nil => exact .nil
  | cons a word ih =>
    rw [List.forall_mem_cons] at h
    exact .other h.1 (ih h.2)

/-- Only the brackets of a word count. -/
theorem Nested.of_filterMap_eq {word : List α} (h : Nested side word) {same : List β}
    (hs : same.filterMap other = word.filterMap side) : Nested other same := by
  induction h generalizing same with
  | nil => exact .of_none (List.filterMap_eq_nil_iff.mp hs)
  | other h _ ih =>
    rw [List.filterMap_cons_none h] at hs
    exact ih hs
  | @nest a z inner rest bracket ha hz _ _ ihInner ihRest =>
    rw [List.filterMap_cons_some ha, List.filterMap_append, List.filterMap_cons_some hz] at hs
    obtain ⟨before, x, _, rfl, none, hx, hs⟩ := List.filterMap_eq_cons_iff.mp hs
    obtain ⟨inside, _, rfl, hi, hs⟩ := List.filterMap_eq_append_iff.mp hs
    obtain ⟨gap, y, back, rfl, noneGap, hy, hs⟩ := List.filterMap_eq_cons_iff.mp hs
    have whole : Nested other (before ++ x :: ((inside ++ gap) ++ y :: back)) :=
      (Nested.of_none none).append
        (.nest bracket hx hy ((ihInner hi).append (.of_none noneGap)) (ihRest hs))
    rwa [List.append_assoc] at whole

theorem Nested.flatMap {ι : Type} {items : List ι} {word : ι → List α}
    (h : ∀ item ∈ items, Nested side (word item)) : Nested side (items.flatMap word) := by
  induction items with
  | nil => exact .nil
  | cons item items ih =>
    rw [List.forall_mem_cons] at h
    exact h.1.append (ih h.2)

theorem Nested.intercalate {separator : List α} {words : List (List α)}
    (hs : Nested side separator) (h : ∀ word ∈ words, Nested side word) :
    Nested side (separator.intercalate words) := by
  cases words with
  | nil => exact .nil
  | cons word words =>
    rw [List.forall_mem_cons] at h
    rw [intercalate_cons]
    exact h.1.append (.flatMap fun other ho => hs.append (h.2 other ho))

theorem Nested.bracketed {inner : List α} {a z : α} (bracket : Bracket)
    (ha : side a = some (.opening bracket)) (hz : side z = some (.closing bracket))
    (h : Nested side inner) : Nested side (a :: (inner ++ [z])) :=
  .nest bracket ha hz h .nil

end Bracket

open FeatureText.Bracket

def Content.side? : Content → Option Side
  | .opening bracket => some (.opening bracket)
  | .closing bracket => some (.closing bracket)
  | _ => none

theorem Json.nested_contents (value : Json) : Nested Content.side? value.contents := by
  have comma : Nested Content.side? [.comma] := .other rfl .nil
  induction value using Json.induct with
  | null | bool | number | text => exact .other rfl .nil
  | array items ih =>
    rw [contents, contentsOfItems_eq_map]
    exact .bracketed .square rfl rfl (.intercalate comma (List.forall_mem_map.mpr ih))
  | object members ih =>
    rw [contents, contentsOfMembers_eq_map]
    refine .bracketed .brace rfl rfl (.intercalate comma (List.forall_mem_map.mpr ?_))
    exact fun member hm => .other rfl (.other rfl (ih member hm))

theorem Json.nested_members (members : List (Text × Json)) :
    Nested Content.side? ([.comma].intercalate (contentsOfMembers members)) := by
  rw [contentsOfMembers_eq_map]
  refine .intercalate (.other rfl .nil) (List.forall_mem_map.mpr fun member _ => ?_)
  exact .other rfl (.other rfl (nested_contents member.2))

namespace Token

def side? : Token → Option Side
  | .opening bracket _ => some (.opening bracket)
  | .closing bracket _ => some (.closing bracket)
  | _ => none

def placedSide? (placed : Nat × Token) : Option Side := placed.2.side?

end Token

theorem Bracket.matched_append {word : List Token} (h : Nested Token.side? word)
    (stack : List Bracket) (rest : List Token) :
    matched stack (word ++ rest) = matched stack rest := by
  induction h generalizing stack rest with
  | nil => rfl
  | @other a word h _ ih =>
    rw [List.cons_append, ← ih stack rest]
    cases a with
    | opening | closing => cases h
    | _ => cases stack <;> rfl
  | @nest a z inner word bracket ha hz _ _ ihInner ihRest =>
    cases a <;> cases ha
    cases z <;> cases hz
    rw [List.cons_append, List.append_assoc, List.cons_append, matched, ihInner, matched, ihRest]
    simp

theorem Tree.isSome_grow (growth : Growth) (tokens : List (Nat × Token)) :
    (growth.grow tokens).any (·.around.isEmpty) =
      matched (growth.around.map Opened.bracket) (tokens.map Prod.snd) := by
  induction tokens generalizing growth with
  | nil => cases h : growth.around <;> simp [Growth.grow, matched, h]
  | cons token tokens ih =>
    obtain ⟨line, token⟩ := token
    cases token with
    | opening bracket column => exact ih _
    | closing bracket column =>
      cases ha : growth.around with
      | nil => simp [Growth.grow, Growth.step, ha, matched]
      | cons opened around =>
        by_cases same : opened.bracket = bracket
        · simp [Growth.grow, Growth.step, ha, matched, same, ih]
        · simp [Growth.grow, Growth.step, ha, matched, same]
    | _ => cases ha : growth.around <;> simp [Growth.grow, Growth.step, matched, ih, ha]

theorem Token.map_snd_placedFrom (first : Nat) (lines : List Line) :
    (placedFrom first lines).map Prod.snd = lines.flatMap ofLine := by
  induction lines generalizing first with
  | nil => rfl
  | cons line lines ih =>
    rw [placedFrom, List.map_append, List.map_map, ih, List.flatMap_cons]
    congr 1
    exact List.map_id _

/-- There is a forest exactly while brackets match. -/
theorem Tree.isSome_forest? (lines : List Line) : (forest? lines).isSome = isBalanced lines := by
  have grown := isSome_grow .seed (Token.placedFrom 0 lines)
  rw [Token.map_snd_placedFrom] at grown
  refine Eq.trans ?_ grown
  rw [forest?, Token.placed]
  cases Growth.seed.grow (Token.placedFrom 0 lines) with
  | none => rfl
  | some growth =>
    obtain ⟨around, trees, literal, name⟩ := growth
    cases around <;> rfl

end FeatureText
