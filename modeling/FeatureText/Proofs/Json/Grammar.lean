import FeatureText.Json.Reader
import FeatureText.Proofs.Json.Contents

/-! The grammar of JSON. A value whose names may repeat stands for the contents that spell it out;
the value that is meant has the repeated names merged. -/
namespace FeatureText

namespace Json

@[elab_as_elim] theorem induct {motive : Json → Prop} (null : motive .null)
    (bool : ∀ value, motive (.bool value)) (number : ∀ value, motive (.number value))
    (text : ∀ value, motive (.text value))
    (array : ∀ items : List Json, (∀ item ∈ items, motive item) → motive (.array items))
    (object : ∀ members : List (Text × Json), (∀ member ∈ members, motive member.2) →
      motive (.object members)) (value : Json) : motive value :=
  Json.rec (motive_1 := motive) (motive_2 := fun items => ∀ item ∈ items, motive item)
    (motive_3 := fun members => ∀ member ∈ members, motive member.2)
    (motive_4 := fun member => motive member.2)
    null bool number text array object (by simp)
    (fun _ _ head tail => List.forall_mem_cons.mpr ⟨head, tail⟩) (by simp)
    (fun _ _ head tail => List.forall_mem_cons.mpr ⟨head, tail⟩) (fun _ _ value => value) value

mutual

def contents : Json → List Content
  | .text value => [.string value]
  | .array items =>
    .opening .square :: ([.comma].intercalate (contentsOfItems items) ++ [.closing .square])
  | .object members =>
    .opening .brace :: ([.comma].intercalate (contentsOfMembers members) ++ [.closing .brace])
  | scalar => [.scalar scalar]

def contentsOfItems : List Json → List (List Content)
  | [] => []
  | item :: items => item.contents :: contentsOfItems items

def contentsOfMembers : List (Text × Json) → List (List Content)
  | [] => []
  | (name, value) :: members =>
    (.string name :: .colon :: value.contents) :: contentsOfMembers members

end

/-- Members in the order in which their names first came, with their last values. -/
def collect (done : List (Text × Json)) (members : List (Text × Json)) : List (Text × Json) :=
  members.foldl (fun done member => putMember member.1 member.2 done) done

mutual

/-- The value with every name at most once. -/
def merged : Json → Json
  | .array items => .array (mergedItems items)
  | .object members => .object (collect [] (mergedMembers members))
  | value => value

def mergedItems : List Json → List Json
  | [] => []
  | item :: items => item.merged :: mergedItems items

def mergedMembers : List (Text × Json) → List (Text × Json)
  | [] => []
  | (name, value) :: members => (name, value.merged) :: mergedMembers members

end

theorem contentsOfItems_eq_map (items : List Json) :
    contentsOfItems items = items.map contents := by
  induction items with
  | nil => rfl
  | cons item items ih => simp [contentsOfItems, ih]

theorem contentsOfMembers_eq_map (members : List (Text × Json)) :
    contentsOfMembers members =
      members.map fun member => .string member.1 :: .colon :: member.2.contents := by
  induction members with
  | nil => rfl
  | cons member members ih => simp [contentsOfMembers, ih]

theorem mergedItems_eq_map (items : List Json) : mergedItems items = items.map merged := by
  induction items with
  | nil => rfl
  | cons item items ih => simp [mergedItems, ih]

theorem mergedMembers_eq_map (members : List (Text × Json)) :
    mergedMembers members = members.map fun member => (member.1, member.2.merged) := by
  induction members with
  | nil => rfl
  | cons member members ih => simp [mergedMembers, ih]

theorem depthOfItems_le_iff {items : List Json} {limit : Nat} :
    depthOfItems items ≤ limit ↔ ∀ item ∈ items, item.depth ≤ limit := by
  induction items with
  | nil => simp [depthOfItems]
  | cons item items ih => rw [depthOfItems, Nat.max_le, ih, List.forall_mem_cons]

theorem depthOfMembers_le_iff {members : List (Text × Json)} {limit : Nat} :
    depthOfMembers members ≤ limit ↔ ∀ member ∈ members, member.2.depth ≤ limit := by
  induction members with
  | nil => simp [depthOfMembers]
  | cons member members ih => rw [depthOfMembers, Nat.max_le, ih, List.forall_mem_cons]

theorem add_depth_array_le {items : List Json} {around limit : Nat}
    (h : ∀ item ∈ items, around + 1 + item.depth ≤ limit) (room : around + 1 ≤ limit) :
    around + (array items).depth ≤ limit := by
  have : depthOfItems items ≤ limit - (around + 1) := depthOfItems_le_iff.mpr fun item hi => by
    have := h item hi
    omega
  simp only [depth]
  omega

theorem add_depth_object_le {members : List (Text × Json)} {around limit : Nat}
    (h : ∀ member ∈ members, around + 1 + member.2.depth ≤ limit) (room : around + 1 ≤ limit) :
    around + (object members).depth ≤ limit := by
  have : depthOfMembers members ≤ limit - (around + 1) :=
    depthOfMembers_le_iff.mpr fun member hm => by
      have := h member hm
      omega
  simp only [depth]
  omega

end Json

theorem intercalate_cons {α : Type} (separator first : List α) (others : List (List α)) :
    separator.intercalate (first :: others) =
      first ++ others.flatMap (separator ++ ·) := by
  induction others generalizing first with
  | nil => simp [List.intercalate]
  | cons next others ih =>
    have := ih next
    simp_all [List.intercalate, List.intersperse]

theorem flatMap_separator {α : Type} (separator : List α) {parts : List (List α)}
    (some : parts ≠ []) :
    parts.flatMap (separator ++ ·) = separator ++ separator.intercalate parts := by
  obtain ⟨first, parts, rfl⟩ := List.exists_cons_of_ne_nil some
  rw [List.flatMap_cons, intercalate_cons, List.append_assoc]

theorem flatMap_intercalate {α β : Type} (f : α → List β) (separator : List α)
    (parts : List (List α)) :
    (separator.intercalate parts).flatMap f =
      (separator.flatMap f).intercalate (parts.map (·.flatMap f)) := by
  cases parts with
  | nil => simp [List.intercalate]
  | cons part parts =>
    rw [List.map_cons, intercalate_cons, intercalate_cons, List.flatMap_append, List.flatMap_map,
      List.flatMap_assoc]
    simp only [List.flatMap_append]

theorem forall_mem_intercalate {α : Type} {p : α → Prop} {separator : List α}
    {parts : List (List α)} (hs : ∀ a ∈ separator, p a) (h : ∀ part ∈ parts, ∀ a ∈ part, p a) :
    ∀ a ∈ separator.intercalate parts, p a := by
  cases parts with
  | nil => simp [List.intercalate]
  | cons part parts =>
    rw [List.forall_mem_cons] at h
    rw [intercalate_cons, List.forall_mem_append, List.forall_mem_flatMap]
    exact ⟨h.1, fun other ho => List.forall_mem_append.mpr ⟨hs, h.2 other ho⟩⟩

def Content.IsProper : Content → Prop
  | .scalar value => value.contents = [.scalar value]
  | _ => True

theorem Content.Spells.isProper {content : Content} {spelling : Text} {stops : Char → Bool}
    (h : Spells content spelling stops) : content.IsProper := by
  cases h <;> first | rfl | trivial

theorem Spelled.isProper {text : Text} {contents : List Content} (h : Spelled text contents) :
    ∀ content ∈ contents, content.IsProper := by
  intro content hc
  obtain ⟨spelling, stops, spells⟩ := h.exists_spells content hc
  exact spells.isProper

end FeatureText
