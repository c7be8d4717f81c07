import FeatureText.Proofs.Digest.Content
import FeatureText.Proofs.Feature.Input
import FeatureText.Proofs.Feature.Key

/-! Content from what is digested of it. Kinds, lengths and texts mark where each part of a value
ends, so different contents never run together, as items or as bytes. -/
namespace FeatureText

namespace Digest

theorem forall₂_of_flatMap {α β : Type} {write : α → List β} {r : α → α → Prop}
    {values others : List α} {rest back : List β}
    (cut : ∀ value ∈ values, ∀ other ∈ others, ∀ rest back,
      write value ++ rest = write other ++ back → r value other ∧ rest = back)
    (length : values.length = others.length)
    (h : values.flatMap write ++ rest = others.flatMap write ++ back) :
    List.Forall₂ r values others ∧ rest = back := by
  induction values generalizing others with
  | nil =>
    cases others with
    | nil => exact ⟨.nil, h⟩
    | cons => cases length
  | cons value values ih =>
    cases others with
    | nil => cases length
    | cons other others =>
      simp only [List.forall_mem_cons] at cut
      simp only [List.flatMap_cons, List.append_assoc] at h
      obtain ⟨first, h⟩ := cut.1.1 _ _ h
      obtain ⟨each, same⟩ := ih (fun value hv => (cut.2 value hv).2) (Nat.succ.inj length) h
      exact ⟨.cons first each, same⟩

theorem lookup_of_forall₂ {α : Type} {r : α → α → Prop} {members others : List (Text × α)}
    (h : List.Forall₂ (fun member other => member.1 = other.1 ∧ r member.2 other.2) members others)
    (name : Text) : Option.Rel r (members.lookup name) (others.lookup name) := by
  induction h with
  | nil => exact .none
  | @cons member other _ _ same _ ih =>
    obtain ⟨first, value⟩ := member
    obtain ⟨second, found⟩ := other
    obtain ⟨rfl, same⟩ := same
    simp only [List.lookup_cons]
    split
    · exact .some same
    · exact ih

/-- Items of one sort are told apart as they are written, whatever stands behind them. -/
def Delimits {β : Type} (write : Item → List β) (fits : Item → Prop) : Prop :=
  ∀ ⦃item other⦄, fits item → fits other → item.ctorIdx = other.ctorIdx →
    ∀ ⦃rest back⦄, write item ++ rest = write other ++ back → item = other ∧ rest = back

def kindOf : Json → UInt8
  | .null => 0
  | .bool _ => 1
  | .number _ => 2
  | .text _ => 3
  | .array _ => 4
  | .object _ => 5

theorem exists_items_eq_cons (value : Json) :
    ∃ body, items value = .kind (kindOf value) :: body := by
  cases value <;> exact ⟨_, rfl⟩

namespace Delimits

variable {β : Type} {write : Item → List β} {fits : Item → Prop} {rest back : List β} {a b : Json}

theorem kindOf_eq (law : Delimits write fits) (fa : ∀ item ∈ items a, fits item)
    (fb : ∀ item ∈ items b, fits item)
    (h : (items a).flatMap write ++ rest = (items b).flatMap write ++ back) :
    kindOf a = kindOf b := by
  obtain ⟨_, left⟩ := exists_items_eq_cons a
  obtain ⟨_, right⟩ := exists_items_eq_cons b
  rw [left] at fa h
  rw [right] at fb h
  simp only [List.forall_mem_cons, List.flatMap_cons, List.append_assoc] at fa fb h
  exact Item.kind.inj (law fa.1 fb.1 rfl h).1

/-- What stands behind a kind is one more item of the value, then the values inside it. -/
theorem behind {kind other : UInt8} {first second : Item} {left right : List Item}
    (law : Delimits write fits) (fa : ∀ item ∈ .kind kind :: first :: left, fits item)
    (fb : ∀ item ∈ .kind other :: second :: right, fits item)
    (like : first.ctorIdx = second.ctorIdx)
    (h : (.kind kind :: first :: left).flatMap write ++ rest =
      (.kind other :: second :: right).flatMap write ++ back) :
    first = second ∧ left.flatMap write ++ rest = right.flatMap write ++ back := by
  simp only [List.forall_mem_cons, List.flatMap_cons, List.append_assoc] at fa fb h
  obtain ⟨-, h⟩ := law fa.1 fb.1 rfl h
  exact law fa.2.1 fb.2.1 like h

theorem lookup_members {members others : List (Text × Json)} (law : Delimits write fits)
    (hm : (members.map Prod.fst).Nodup) (ho : (others.map Prod.fst).Nodup)
    (length : members.length = others.length)
    (fm : ∀ member ∈ members, fits (.text member.1)) (fo : ∀ other ∈ others, fits (.text other.1))
    (cut : ∀ member ∈ members, ∀ other ∈ others, ∀ rest back,
      (items member.2).flatMap write ++ rest = (items other.2).flatMap write ++ back →
        member.2.SameContent other.2 ∧ rest = back)
    (h : ((sortByName members).flatMap fun member => .text member.1 :: items member.2).flatMap
          write ++ rest =
      ((sortByName others).flatMap fun member => .text member.1 :: items member.2).flatMap
          write ++ back) :
    (∀ name, Option.Rel Json.SameContent (members.lookup name) (others.lookup name)) ∧
      rest = back := by
  have named : ∀ member ∈ sortByName members, ∀ other ∈ sortByName others, ∀ rest back,
      (Item.text member.1 :: items member.2).flatMap write ++ rest =
          (Item.text other.1 :: items other.2).flatMap write ++ back →
        (member.1 = other.1 ∧ member.2.SameContent other.2) ∧ rest = back := by
    intro member hv other hw rest back h
    rw [(sortByName_perm _).mem_iff] at hv hw
    rw [List.flatMap_cons, List.flatMap_cons, List.append_assoc, List.append_assoc] at h
    obtain ⟨name, h⟩ := law (fm member hv) (fo other hw) rfl h
    obtain ⟨same, ends⟩ := cut member hv other hw _ _ h
    exact ⟨⟨Item.text.inj name, same⟩, ends⟩
  have lengths : (sortByName members).length = (sortByName others).length := by
    rw [(sortByName_perm _).length_eq, (sortByName_perm _).length_eq, length]
  rw [List.flatMap_assoc, List.flatMap_assoc] at h
  obtain ⟨each, ends⟩ := forall₂_of_flatMap named lengths h
  refine ⟨fun name => ?_, ends⟩
  rw [← lookup_sortByName hm, ← lookup_sortByName ho]
  exact lookup_of_forall₂ each name

/-- What is written of a value, with anything behind it, determines its content and its end. -/
theorem sameContent (law : Delimits write fits) (ha : a.HasDistinctNames)
    (hb : b.HasDistinctNames) (fa : ∀ item ∈ items a, fits item) (fb : ∀ item ∈ items b, fits item)
    (h : (items a).flatMap write ++ rest = (items b).flatMap write ++ back) :
    a.SameContent b ∧ rest = back := by
  -- The rests stay general: what stands behind a part of a value is its other parts.
  have kinds := law.kindOf_eq fa fb h
  induction a using Json.induct generalizing b rest back with
  | null =>
    cases b with
    | null => exact ⟨.null, List.append_cancel_left h⟩
    | _ => simp [kindOf] at kinds
  | bool value =>
    cases b with
    | bool other =>
      obtain ⟨same, ends⟩ := law.behind fa fb rfl h
      obtain rfl := Item.flag.inj same
      exact ⟨.bool value, ends⟩
    | _ => simp [kindOf] at kinds
  | number n =>
    cases b with
    | number m =>
      obtain ⟨same, ends⟩ := law.behind fa fb rfl h
      exact ⟨.number (Item.text.inj same), ends⟩
    | _ => simp [kindOf] at kinds
  | text value =>
    cases b with
    | text other =>
      obtain ⟨same, ends⟩ := law.behind fa fb rfl h
      obtain rfl := Item.text.inj same
      exact ⟨.text value, ends⟩
    | _ => simp [kindOf] at kinds
  | array values ih =>
    cases b with
    | array others =>
      rw [Json.hasDistinctNames_array_iff] at ha hb
      simp only [items_array] at fa fb h
      obtain ⟨length, h⟩ := law.behind fa fb rfl h
      simp only [List.forall_mem_cons, List.forall_mem_flatMap] at fa fb
      have cut : ∀ value ∈ values, ∀ other ∈ others, ∀ rest back,
          (items value).flatMap write ++ rest = (items other).flatMap write ++ back →
            value.SameContent other ∧ rest = back := by
        intro value hv other ho rest back h
        have fv := fa.2.2 value hv
        have fo := fb.2.2 other ho
        exact ih value hv (ha value hv) (hb other ho) fv fo h (law.kindOf_eq fv fo h)
      rw [List.flatMap_assoc, List.flatMap_assoc] at h
      obtain ⟨each, ends⟩ := forall₂_of_flatMap cut (Item.count.inj length) h
      exact ⟨.array each, ends⟩
    | _ => simp [kindOf] at kinds
  | object members ih =>
    cases b with
    | object others =>
      obtain ⟨hm, ha⟩ := Json.hasDistinctNames_object_iff.mp ha
      obtain ⟨ho, hb⟩ := Json.hasDistinctNames_object_iff.mp hb
      simp only [items_object] at fa fb h
      obtain ⟨length, h⟩ := law.behind fa fb rfl h
      simp only [List.forall_mem_cons, List.forall_mem_flatMap,
        (sortByName_perm _).mem_iff] at fa fb
      have fm := fun member hv => (fa.2.2 member hv).1
      have fo := fun other hw => (fb.2.2 other hw).1
      have cut : ∀ member ∈ members, ∀ other ∈ others, ∀ rest back,
          (items member.2).flatMap write ++ rest = (items other.2).flatMap write ++ back →
            member.2.SameContent other.2 ∧ rest = back := by
        intro member hv other hw rest back h
        have fv := (fa.2.2 member hv).2
        have fw := (fb.2.2 other hw).2
        exact ih member hv (ha member hv) (hb other hw) fv fw h (law.kindOf_eq fv fw h)
      obtain ⟨each, ends⟩ := law.lookup_members hm ho (Item.count.inj length) fm fo cut h
      exact ⟨.object each, ends⟩
    | _ => simp [kindOf] at kinds

end Delimits

theorem delimits_singleton : Delimits (fun item => [item]) fun _ => True := by
  intro item other _ _ _ rest back h
  exact List.cons.inj h

section Bytes

variable {rest back : List UInt8}

theorem utf8EncodeChar_append_inj {c d : Char}
    (h : String.utf8EncodeChar c ++ rest = String.utf8EncodeChar d ++ back) :
    c = d ∧ rest = back := by
  have bytes := congrArg List.toByteArray h
  rw [List.toByteArray_append, List.toByteArray_append] at bytes
  have read := congrArg (ByteArray.utf8DecodeChar? · 0) bytes
  simp only [ByteArray.utf8DecodeChar?_utf8EncodeChar_append, Option.some.injEq] at read
  obtain rfl := read
  exact ⟨rfl, List.append_cancel_left h⟩

theorem utf8EncodeChar_append_ne (c : Char) : String.utf8EncodeChar c ++ rest ≠ 0xff :: back := by
  intro h
  have first : (String.utf8EncodeChar c).head? = some 0xff := by
    rw [← List.head?_append_of_ne_nil _ String.utf8EncodeChar_ne_nil, h, List.head?_cons]
  have starts := @UInt8.isUTF8FirstByte_getElem_zero_utf8EncodeChar c
  rw [List.head?_eq_getElem?, List.getElem?_eq_some_iff] at first
  obtain ⟨_, last⟩ := first
  rw [last] at starts
  exact absurd starts (by decide)

theorem utf8_cons (c : Char) (text : Text) :
    utf8 (c :: text) = String.utf8EncodeChar c ++ utf8 text := List.flatMap_cons

theorem utf8_append_inj {a b : Text} (h : utf8 a ++ 0xff :: rest = utf8 b ++ 0xff :: back) :
    a = b ∧ rest = back := by
  induction a generalizing b with
  | nil =>
    cases b with
    | nil => exact ⟨rfl, (List.cons.inj h).2⟩
    | cons d b =>
      rw [utf8_cons, List.append_assoc] at h
      exact absurd h.symm (utf8EncodeChar_append_ne d)
  | cons c a ih =>
    rw [utf8_cons, List.append_assoc] at h
    cases b with
    | nil => exact absurd h (utf8EncodeChar_append_ne c)
    | cons d b =>
      rw [utf8_cons, List.append_assoc] at h
      obtain ⟨rfl, behind⟩ := utf8EncodeChar_append_inj h
      obtain ⟨rfl, ends⟩ := ih behind
      exact ⟨rfl, ends⟩

def Item.Fits : Item → Prop
  | .count size => size < 2 ^ 64
  | _ => True

instance : DecidablePred Item.Fits
  | .count size => inferInstanceAs (Decidable (size < 2 ^ 64))
  | .kind _ | .flag _ | .text _ => .isTrue trivial

theorem count_bytes_inj {size other : Nat} (hs : size < 256 ^ 8) (ho : other < 256 ^ 8)
    (h : (Item.count size).bytes = (Item.count other).bytes) : size = other := by
  have digits : ∀ place < 8, size / 256 ^ place % 256 = other / 256 ^ place % 256 := by
    intro place hp
    rw [Item.bytes, Item.bytes, List.map_inj_left] at h
    simpa using congrArg UInt8.toNat (h place (List.mem_range.mpr hp))
  have agree := Feature.mod_eq_of_digits 8 digits
  rwa [Nat.mod_eq_of_lt hs, Nat.mod_eq_of_lt ho] at agree

theorem delimits_bytes : Delimits Item.bytes Item.Fits := by
  intro item other hi ho like rest back h
  cases item with
  | kind tag =>
    cases other with
    | kind other =>
      obtain ⟨rfl, ends⟩ := List.cons.inj h
      exact ⟨rfl, ends⟩
    | _ => cases like
  | flag value =>
    cases other with
    | flag other =>
      obtain ⟨byte, ends⟩ := List.cons.inj h
      have same : value = other := by cases value <;> cases other <;> simp at byte ⊢
      exact ⟨congrArg Item.flag same, ends⟩
    | _ => cases like
  | count size =>
    cases other with
    | count other =>
      obtain ⟨bytes, ends⟩ := List.append_inj h (by simp [Item.bytes])
      exact ⟨congrArg Item.count (count_bytes_inj hi ho bytes), ends⟩
    | _ => cases like
  | text value =>
    cases other with
    | text other =>
      rw [Item.bytes, Item.bytes, List.append_assoc, List.append_assoc] at h
      obtain ⟨rfl, ends⟩ := utf8_append_inj h
      exact ⟨rfl, ends⟩
    | _ => cases like

end Bytes

end Digest

namespace Feature

def memberOrNull (name : String) (feature : Json) : Json :=
  (feature.member? name.toList).getD .null

/-- Features with the same geometry and the same properties. -/
structure SameContent (a b : Json) : Prop where
  geometry : (memberOrNull "geometry" a).SameContent (memberOrNull "geometry" b)
  properties : (memberOrNull "properties" a).SameContent (memberOrNull "properties" b)

theorem digestItems_eq (feature : Json) :
    digestItems feature = Digest.items (memberOrNull "geometry" feature) ++
      Digest.items (memberOrNull "properties" feature) := rfl

theorem hasDistinctNames_memberOrNull {feature : Json} (h : feature.HasDistinctNames)
    (name : String) : (memberOrNull name feature).HasDistinctNames := by
  rw [memberOrNull]
  cases found : feature.member? name.toList with
  | none => decide
  | some value =>
    cases feature with
    | object members => exact hasDistinctNames_of_lookup h found
    | _ => cases found

section Digested

variable {a b : Json}

theorem digestItems_eq_of_sameContent (ha : a.HasDistinctNames) (hb : b.HasDistinctNames)
    (h : SameContent a b) : digestItems a = digestItems b := by
  have geometry := Digest.items_eq_of_sameContent (hasDistinctNames_memberOrNull ha _)
    (hasDistinctNames_memberOrNull hb _) h.geometry
  have properties := Digest.items_eq_of_sameContent (hasDistinctNames_memberOrNull ha _)
    (hasDistinctNames_memberOrNull hb _) h.properties
  rw [digestItems_eq, digestItems_eq, geometry, properties]

theorem sameContent_of_written {β : Type} {write : Digest.Item → List β}
    {fits : Digest.Item → Prop} (law : Digest.Delimits write fits) (ha : a.HasDistinctNames)
    (hb : b.HasDistinctNames) (fa : ∀ item ∈ digestItems a, fits item)
    (fb : ∀ item ∈ digestItems b, fits item)
    (h : (digestItems a).flatMap write = (digestItems b).flatMap write) : SameContent a b := by
  rw [digestItems_eq, List.forall_mem_append] at fa fb
  rw [digestItems_eq, digestItems_eq, List.flatMap_append, List.flatMap_append] at h
  obtain ⟨geometry, behind⟩ := law.sameContent (hasDistinctNames_memberOrNull ha _)
    (hasDistinctNames_memberOrNull hb _) fa.1 fb.1 h
  have last := congrArg (· ++ []) behind
  obtain ⟨properties, -⟩ := law.sameContent (hasDistinctNames_memberOrNull ha _)
    (hasDistinctNames_memberOrNull hb _) fa.2 fb.2 last
  exact ⟨geometry, properties⟩

/-- What is digested of two features is the same, as items and as bytes, exactly if their content
is. -/
theorem digest_tells_content (ha : a.HasDistinctNames) (hb : b.HasDistinctNames) :
    (digestItems a = digestItems b ↔ SameContent a b) ∧
      ((∀ item ∈ digestItems a ++ digestItems b, item.Fits) →
        ((digestItems a).flatMap Digest.Item.bytes = (digestItems b).flatMap Digest.Item.bytes ↔
          SameContent a b)) := by
  have written (h : SameContent a b) := digestItems_eq_of_sameContent ha hb h
  refine ⟨⟨fun same => ?_, written⟩, fun fits => ⟨fun same => ?_, fun h => by rw [written h]⟩⟩
  · apply sameContent_of_written Digest.delimits_singleton ha hb
    · exact fun _ _ => trivial
    · exact fun _ _ => trivial
    · rw [same]
  · rw [List.forall_mem_append] at fits
    exact sameContent_of_written Digest.delimits_bytes ha hb fits.1 fits.2 same

end Digested

def marked (coordinates : List Int) : Json :=
  .object
    [("geometry".toList, .object
       [("type".toList, .text "Point".toList),
        ("coordinates".toList, .array (coordinates.map fun n => .number (.integer n)))]),
     ("properties".toList, .object
       [("a".toList, .number (.integer 1)), ("b".toList, .number (.integer 2))])]

def turned : Json :=
  .object
    [("properties".toList, .object
       [("b".toList, .number (.integer 2)), ("a".toList, .number (.integer 1))]),
     ("geometry".toList, .object
       [("coordinates".toList, .array [.number (.integer 1), .number (.integer 2)]),
        ("type".toList, .text "Point".toList)])]

theorem digest_tells_content_marked :
    (marked [1, 2]).HasDistinctNames ∧ turned.HasDistinctNames ∧ (marked [1, 3]).HasDistinctNames ∧
      (∀ item ∈ digestItems (marked [1, 3]) ++ digestItems turned, item.Fits) ∧
      SameContent (marked [1, 2]) turned ∧ ¬SameContent (marked [1, 3]) turned := by
  have hm : (marked [1, 2]).HasDistinctNames := by decide
  have ht : turned.HasDistinctNames := by decide
  have hn : (marked [1, 3]).HasDistinctNames := by decide
  have fits : ∀ item ∈ digestItems (marked [1, 3]) ++ digestItems turned, item.Fits := by decide
  have same : digestItems (marked [1, 2]) = digestItems turned := by decide
  have differ : (digestItems (marked [1, 3])).flatMap Digest.Item.bytes ≠
      (digestItems turned).flatMap Digest.Item.bytes := by decide
  refine ⟨hm, ht, hn, fits, (digest_tells_content hm ht).1.mp same, ?_⟩
  exact mt ((digest_tells_content hn ht).2 fits).mpr differ

example : digestItems .null = digestItems (.object [("geometry".toList, .null)]) := rfl

end Feature

end FeatureText
