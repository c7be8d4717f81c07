import FeatureText.Proofs.Json.Number

/-! The values that a value holds. A value read from a text has every name of an object once, and
merging leaves a value with such names as it is. -/
namespace FeatureText

namespace Json

def names : Json → List Text
  | .object members => members.map Prod.fst
  | _ => []

def isObject : Json → Bool
  | .object _ => true
  | _ => false

theorem isObject_iff {value : Json} : value.isObject ↔ ∃ members, value = .object members := by
  cases value <;> simp [isObject]

theorem filter_isObject_eq_self {values : List Json}
    (objects : ∀ value ∈ values, ∃ members, value = .object members) :
    values.filter isObject = values :=
  List.filter_eq_self.mpr fun value hv => isObject_iff.mpr (objects value hv)

mutual

def parts : Json → List Json
  | .array items => .array items :: partsOfItems items
  | .object members => .object members :: partsOfMembers members
  | scalar => [scalar]

def partsOfItems : List Json → List Json
  | [] => []
  | item :: items => item.parts ++ partsOfItems items

def partsOfMembers : List (Text × Json) → List Json
  | [] => []
  | (_, value) :: members => value.parts ++ partsOfMembers members

end

theorem partsOfItems_eq_flatMap (items : List Json) : partsOfItems items = items.flatMap parts := by
  induction items with
  | nil => rfl
  | cons item items ih => rw [partsOfItems, ih, List.flatMap_cons]

theorem partsOfMembers_eq_flatMap (members : List (Text × Json)) :
    partsOfMembers members = members.flatMap fun member => member.2.parts := by
  induction members with
  | nil => rfl
  | cons member members ih => rw [partsOfMembers, ih, List.flatMap_cons]

/-- No object in the value has a name twice, as in every value that is read. -/
def HasDistinctNames (value : Json) : Prop := ∀ part ∈ value.parts, part.names.Nodup

def HasNumbers (p : Number → Prop) (value : Json) : Prop :=
  ∀ part ∈ value.parts, ∀ n, part = .number n → p n

/-- Every number in the value reads back from its spelling. -/
def HasExactNumbers (value : Json) : Prop :=
  ∀ part ∈ value.parts, ∀ n, part = .number n → n.ReadsBack

def HasReadableNumbers (value : Json) : Prop := value.HasNumbers Number.IsReadable

instance (value : Json) : Decidable value.HasDistinctNames :=
  inferInstanceAs (Decidable (∀ part ∈ value.parts, part.names.Nodup))

theorem hasDistinctNames_array_iff {items : List Json} :
    (array items).HasDistinctNames ↔ ∀ item ∈ items, item.HasDistinctNames := by
  simp only [HasDistinctNames, parts, partsOfItems_eq_flatMap, List.forall_mem_cons,
    List.forall_mem_flatMap, names, List.nodup_nil, true_and]

theorem hasDistinctNames_object_iff {members : List (Text × Json)} :
    (object members).HasDistinctNames ↔
      (members.map Prod.fst).Nodup ∧ ∀ member ∈ members, member.2.HasDistinctNames := by
  simp only [HasDistinctNames, parts, partsOfMembers_eq_flatMap, List.forall_mem_cons,
    List.forall_mem_flatMap, names]

section Numbers

variable {p : Number → Prop}

theorem hasNumbers_number_iff {n : Number} : (number n).HasNumbers p ↔ p n := by
  simp [HasNumbers, parts]

theorem hasNumbers_array_iff {items : List Json} :
    (array items).HasNumbers p ↔ ∀ item ∈ items, item.HasNumbers p := by
  simp only [HasNumbers, parts, partsOfItems_eq_flatMap, List.forall_mem_cons,
    List.forall_mem_flatMap, reduceCtorEq, false_implies, implies_true, true_and]

theorem hasNumbers_object_iff {members : List (Text × Json)} :
    (object members).HasNumbers p ↔ ∀ member ∈ members, member.2.HasNumbers p := by
  simp only [HasNumbers, parts, partsOfMembers_eq_flatMap, List.forall_mem_cons,
    List.forall_mem_flatMap, reduceCtorEq, false_implies, implies_true, true_and]

end Numbers

theorem hasExactNumbers_null : null.HasExactNumbers := by simp [HasExactNumbers, parts]

theorem hasExactNumbers_text (value : Text) : (text value).HasExactNumbers := by
  simp [HasExactNumbers, parts]

theorem hasExactNumbers_number_iff {n : Number} : (number n).HasExactNumbers ↔ n.ReadsBack :=
  hasNumbers_number_iff

theorem hasExactNumbers_array_iff {items : List Json} :
    (array items).HasExactNumbers ↔ ∀ item ∈ items, item.HasExactNumbers :=
  hasNumbers_array_iff

theorem hasExactNumbers_object_iff {members : List (Text × Json)} :
    (object members).HasExactNumbers ↔ ∀ member ∈ members, member.2.HasExactNumbers :=
  hasNumbers_object_iff

theorem HasExactNumbers.hasReadableNumbers {value : Json} (h : value.HasExactNumbers) :
    value.HasReadableNumbers := fun part hp n hn => (h part hp n hn).isReadable

mutual

/-- The value with each number replaced by the one that its spelling is read as. -/
def reread : Json → Json
  | .number n => .number n.reread
  | .array items => .array (rereadItems items)
  | .object members => .object (rereadMembers members)
  | value => value

def rereadItems : List Json → List Json
  | [] => []
  | item :: items => item.reread :: rereadItems items

def rereadMembers : List (Text × Json) → List (Text × Json)
  | [] => []
  | (name, value) :: members => (name, value.reread) :: rereadMembers members

end

theorem rereadItems_eq_map (items : List Json) : rereadItems items = items.map reread := by
  induction items with
  | nil => rfl
  | cons item items ih => rw [rereadItems, ih, List.map_cons]

theorem rereadMembers_eq_map (members : List (Text × Json)) :
    rereadMembers members = members.map fun member => (member.1, member.2.reread) := by
  induction members with
  | nil => rfl
  | cons member members ih => rw [rereadMembers, ih, List.map_cons]

theorem depth_reread (value : Json) : value.reread.depth = value.depth := by
  induction value using Json.induct with
  | null | bool | number | text => rfl
  | array items ih =>
    have same : depthOfItems (rereadItems items) = depthOfItems items := by
      refine eq_of_forall_ge_iff fun limit => ?_
      rw [rereadItems_eq_map, depthOfItems_le_iff, depthOfItems_le_iff, List.forall_mem_map]
      exact forall₂_congr fun item hi => by rw [ih item hi]
    rw [reread, depth, depth, same]
  | object members ih =>
    have same : depthOfMembers (rereadMembers members) = depthOfMembers members := by
      refine eq_of_forall_ge_iff fun limit => ?_
      rw [rereadMembers_eq_map, depthOfMembers_le_iff, depthOfMembers_le_iff, List.forall_mem_map]
      exact forall₂_congr fun member hm => by rw [ih member hm]
    rw [reread, depth, depth, same]

theorem reread_eq_self {value : Json} (h : value.HasExactNumbers) : value.reread = value := by
  induction value using Json.induct with
  | null | bool | text => rfl
  | number n => rw [reread, (hasExactNumbers_number_iff.mp h).reread_eq]
  | array items ih =>
    rw [hasExactNumbers_array_iff] at h
    rw [reread, rereadItems_eq_map, List.map_congr_left fun item hi => ih item hi (h item hi),
      List.map_id']
  | object members ih =>
    rw [hasExactNumbers_object_iff] at h
    have same : rereadMembers members = members := by
      rw [rereadMembers_eq_map]
      refine (List.map_congr_left fun member hm => ?_).trans (List.map_id members)
      rw [ih member hm (h member hm)]
      rfl
    rw [reread, same]

theorem map_fst_putMember (name : Text) (value : Json) (members : List (Text × Json)) :
    (putMember name value members).map Prod.fst =
      if name ∈ members.map Prod.fst then members.map Prod.fst
      else members.map Prod.fst ++ [name] := by
  induction members with
  | nil => simp [putMember]
  | cons member members ih =>
    obtain ⟨other, old⟩ := member
    rw [putMember]
    by_cases same : other = name
    · simp [same]
    · rw [if_neg same, List.map_cons, ih]
      by_cases there : name ∈ members.map Prod.fst
      · simp [there]
      · simp [there, Ne.symm same]

theorem putMember_of_notMem {name : Text} {members : List (Text × Json)}
    (h : name ∉ members.map Prod.fst) (value : Json) :
    putMember name value members = members ++ [(name, value)] := by
  induction members with
  | nil => rfl
  | cons member members ih =>
    obtain ⟨other, old⟩ := member
    rw [List.map_cons, List.mem_cons, not_or] at h
    rw [putMember, if_neg (Ne.symm h.1), ih h.2]
    rfl

theorem nodup_putMember {members : List (Text × Json)} (h : (members.map Prod.fst).Nodup)
    (name : Text) (value : Json) : ((putMember name value members).map Prod.fst).Nodup := by
  rw [map_fst_putMember]
  by_cases there : name ∈ members.map Prod.fst
  · rwa [if_pos there]
  · rw [if_neg there]
    refine List.nodup_append.mpr ⟨h, by simp, ?_⟩
    intro other ho last hl
    rw [List.mem_singleton.mp hl]
    rintro rfl
    exact there ho

theorem mem_putMember {name : Text} {value : Json} {members : List (Text × Json)}
    {member : Text × Json} (h : member ∈ putMember name value members) :
    member = (name, value) ∨ member ∈ members := by
  induction members with
  | nil => simpa [putMember] using h
  | cons first members ih =>
    rw [putMember] at h
    split at h
    · rcases List.mem_cons.mp h with h | h
      · exact .inl h
      · exact .inr (List.mem_cons_of_mem _ h)
    · rcases List.mem_cons.mp h with h | h
      · exact .inr (h ▸ List.mem_cons_self)
      · exact (ih h).imp_right (List.mem_cons_of_mem _)

theorem nodup_collect {done : List (Text × Json)} (h : (done.map Prod.fst).Nodup)
    (members : List (Text × Json)) : ((collect done members).map Prod.fst).Nodup := by
  induction members generalizing done with
  | nil => exact h
  | cons member members ih => exact ih (nodup_putMember h member.1 member.2)

theorem mem_collect {done members : List (Text × Json)} {member : Text × Json}
    (h : member ∈ collect done members) : member ∈ done ∨ member ∈ members := by
  induction members generalizing done with
  | nil => exact .inl h
  | cons first members ih =>
    rcases ih h with h | h
    · rcases mem_putMember h with h | h
      · exact .inr (h ▸ List.mem_cons_self)
      · exact .inl h
    · exact .inr (List.mem_cons_of_mem _ h)

theorem collect_eq_append {done members : List (Text × Json)}
    (h : ((done ++ members).map Prod.fst).Nodup) : collect done members = done ++ members := by
  induction members generalizing done with
  | nil => rw [List.append_nil]; rfl
  | cons member members ih =>
    have new : member.1 ∉ done.map Prod.fst := by
      intro there
      rw [List.map_append, List.nodup_append] at h
      exact h.2.2 _ there _ (by simp) rfl
    have rest : ((done ++ [member] ++ members).map Prod.fst).Nodup := by
      rwa [List.append_assoc, List.singleton_append]
    have := ih rest
    rw [List.append_assoc, List.singleton_append] at this
    rw [collect, List.foldl_cons, putMember_of_notMem new]
    exact this

/-- A value whose names are distinct means itself. -/
theorem merged_eq_self {value : Json} (h : value.HasDistinctNames) : value.merged = value := by
  induction value using Json.induct with
  | null | bool | number | text => rfl
  | array items ih =>
    rw [hasDistinctNames_array_iff] at h
    rw [merged, mergedItems_eq_map, List.map_congr_left fun item hi => ih item hi (h item hi),
      List.map_id']
  | object members ih =>
    rw [hasDistinctNames_object_iff] at h
    have same : mergedMembers members = members := by
      rw [mergedMembers_eq_map]
      refine (List.map_congr_left fun member hm => ?_).trans (List.map_id members)
      rw [ih member hm (h.2 member hm)]
      rfl
    rw [merged, same, collect_eq_append (by simpa using h.1), List.nil_append]

/-- What is meant by a value has distinct names. -/
theorem hasDistinctNames_merged (value : Json) : value.merged.HasDistinctNames := by
  induction value using Json.induct with
  | null | bool | number | text => simp [merged, HasDistinctNames, parts, names]
  | array items ih =>
    rw [merged, mergedItems_eq_map, hasDistinctNames_array_iff]
    intro item hi
    obtain ⟨raw, hr, rfl⟩ := List.mem_map.mp hi
    exact ih raw hr
  | object members ih =>
    rw [merged, hasDistinctNames_object_iff]
    refine ⟨nodup_collect (by simp) _, ?_⟩
    intro member hm
    have hm := (mem_collect hm).resolve_left (by simp)
    rw [mergedMembers_eq_map] at hm
    obtain ⟨raw, hr, rfl⟩ := List.mem_map.mp hm
    exact ih raw hr

theorem isObject_merged (value : Json) : value.merged.isObject = value.isObject := by
  cases value <;> rfl

theorem depth_merged_le (value : Json) : value.merged.depth ≤ value.depth := by
  induction value using Json.induct with
  | null | bool | number | text => exact Nat.le_refl _
  | array items ih =>
    rw [merged, mergedItems_eq_map, depth, depth]
    refine Nat.succ_le_succ (depthOfItems_le_iff.mpr fun item hi => ?_)
    obtain ⟨raw, hr, rfl⟩ := List.mem_map.mp hi
    exact (ih raw hr).trans (depthOfItems_le_iff.mp (Nat.le_refl _) raw hr)
  | object members ih =>
    rw [merged, depth, depth]
    refine Nat.succ_le_succ (depthOfMembers_le_iff.mpr fun member hm => ?_)
    have hm := (mem_collect hm).resolve_left (by simp)
    rw [mergedMembers_eq_map] at hm
    obtain ⟨raw, hr, rfl⟩ := List.mem_map.mp hm
    exact (ih raw hr).trans (depthOfMembers_le_iff.mp (Nat.le_refl _) raw hr)

end Json

end FeatureText
