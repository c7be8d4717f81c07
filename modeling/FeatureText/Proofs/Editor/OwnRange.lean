import FeatureText.Proofs.Editor.SavedFile
import FeatureText.Proofs.Feature.Occurrence

/-! What a file leaves out. An object is hidden by the key of its own range, which numbers it among
the objects, and left out by a key that numbers it among all items. Any other value in front of it
that has its hash moves the second number and not the first. -/
namespace FeatureText.Editor

open Feature (key occurrence ownOccurrence)

def ownRange? (e : Editor) (items : List Json) (place : Nat) : Option FeatureRange :=
  if items[place]?.any Json.isObject then e.ranges[(items.take place).countP Json.isObject]?
  else none

def hidesOwn (e : Editor) (items : List Json) (place : Nat) : Bool :=
  (e.ownRange? items place).any fun r => e.hidden.contains r.key

def ownFlags (e : Editor) (items : List Json) : List Bool :=
  (List.range items.length).map (e.hidesOwn items)

/-- An object with a hidden range stands behind a value that is no object and has the same hash. -/
def Misnumbers (e : Editor) (items : List Json) : Prop :=
  ∃ place later value object, place < later ∧ items[place]? = some value ∧
    items[later]? = some object ∧ value.isObject = false ∧
    Feature.hash value = Feature.hash object ∧ e.hidesOwn items later

variable {e : Editor} {items : List Json} {place : Nat} {item : Json}

theorem hash_of_not_object {value : Json} (other : value.isObject = false) :
    Feature.hash value = Feature.hash (.object []) := by
  cases value with
  | object => cases other
  | _ => rfl

theorem getElem?_hiddenFlags (e : Editor) (there : items[place]? = some item) :
    (e.hiddenFlags items)[place]? =
      some (e.hidden.contains (key (Feature.hash item) (occurrence (items.take place) item))) := by
  rw [hiddenFlags, List.getElem?_map, Feature.getElem?_keys there]
  rfl

theorem getElem?_ownFlags (e : Editor) (there : items[place]? = some item) :
    (e.ownFlags items)[place]? = some (e.hidesOwn items place) := by
  rw [ownFlags, List.getElem?_map, List.getElem?_range (List.getElem?_eq_some_iff.mp there).1]
  rfl

theorem Synced.hidesOwn_iff (h : Synced e) (read : e.features = .ok items)
    (there : items[place]? = some item) :
    e.hidesOwn items place ↔ item.isObject ∧
      key (Feature.hash item) (ownOccurrence (items.take place) item) ∈ e.hidden.keys := by
  cases fits : item.isObject with
  | false => simp [hidesOwn, ownRange?, there, fits]
  | true =>
    have found := Feature.getElem?_keys_filter there fits
    rw [← h.map_key_ranges_filter read, List.getElem?_map, Option.map_eq_some_iff] at found
    obtain ⟨r, hr, same⟩ := found
    simp [hidesOwn, ownRange?, there, fits, hr, same, HiddenSet.contains]

theorem Synced.exists_own (h : Synced e) (read : e.features = .ok items) {digest : UInt64}
    {number : Nat} (hidden : key digest number ∈ e.hidden.keys) :
    ∃ place object, items[place]? = some object ∧ object.isObject ∧ Feature.hash object = digest ∧
      ownOccurrence (items.take place) object = number := by
  obtain ⟨r, hr, same⟩ := h.hidesOnlyRanges read _ hidden
  have there : key digest number ∈ Feature.keys (items.filter Json.isObject) := by
    rw [← h.map_key_ranges_filter read, ← same]
    exact List.mem_map_of_mem hr
  obtain ⟨index, inside, found⟩ := List.getElem_of_mem there
  have bound : index < (items.filter Json.isObject).length := by simpa using inside
  obtain ⟨place, at_, fits, count⟩ :=
    exists_of_getElem?_filter (List.getElem?_eq_getElem bound)
  have numbered := Feature.getElem?_keys_filter at_ fits
  rw [count, List.getElem?_eq_getElem inside, found] at numbered
  obtain ⟨digests, numbers⟩ := Feature.key_injective (Option.some.inj numbered)
  exact ⟨place, _, at_, fits, digests.symm, numbers.symm⟩

theorem hiddenFlags_eq_ownFlags_iff_forall (e : Editor) (items : List Json) :
    e.hiddenFlags items = e.ownFlags items ↔ ∀ place item, items[place]? = some item →
      e.hidden.contains (key (Feature.hash item) (occurrence (items.take place) item)) =
        e.hidesOwn items place := by
  constructor
  · intro same place item there
    have flags := getElem?_hiddenFlags e there
    rw [same, getElem?_ownFlags e there] at flags
    exact (Option.some.inj flags).symm
  · intro all
    refine List.ext_getElem? fun place => ?_
    cases there : items[place]? with
    | some item =>
      rw [getElem?_hiddenFlags e there, getElem?_ownFlags e there, all place item there]
    | none =>
      have outside := List.getElem?_eq_none_iff.mp there
      rw [List.getElem?_eq_none (by simpa [hiddenFlags] using outside),
        List.getElem?_eq_none (by simpa [ownFlags] using outside)]

/-- An item that is left out, and is no object or behind another value with its hash, takes the key
of a later object. -/
theorem Synced.exists_later (h : Synced e) (read : e.features = .ok items)
    (there : items[place]? = some item)
    (shifted : item.isObject = false ∨
      ownOccurrence (items.take place) item < occurrence (items.take place) item)
    (hidden : key (Feature.hash item) (occurrence (items.take place) item) ∈ e.hidden.keys) :
    ∃ later object, place < later ∧ items[later]? = some object ∧
      Feature.hash object = Feature.hash item ∧ e.hidesOwn items later := by
  obtain ⟨later, object, found, fits, same, number⟩ := h.exists_own read hidden
  have own : ownOccurrence (items.take later) item = occurrence (items.take place) item := by
    rw [← number, ownOccurrence, ownOccurrence, occurrence, occurrence, same]
  refine ⟨later, object, ?_, found, same, (h.hidesOwn_iff read found).mpr ⟨fits, ?_⟩⟩
  · have le := Feature.ownOccurrence_le (items.take place) item
    by_contra order
    rcases Nat.lt_or_eq_of_le (Nat.not_lt.mp order) with less | rfl
    · have := Feature.ownOccurrence_lt found fits less same
      omega
    · obtain rfl := Option.some.inj (found.symm.trans there)
      rcases shifted with other | less
      · exact absurd fits (by simp [other])
      · omega
  · rwa [number, same]

theorem exists_value_in_front (there : items[place]? = some item)
    (shifted : item.isObject = false ∨
      ownOccurrence (items.take place) item < occurrence (items.take place) item) :
    ∃ front value, front ≤ place ∧ items[front]? = some value ∧ value.isObject = false ∧
      Feature.hash value = Feature.hash item := by
  rcases shifted with other | less
  · exact ⟨place, item, Nat.le_refl _, there, other, rfl⟩
  · obtain ⟨value, hv, other, same⟩ := Feature.ownOccurrence_lt_iff.mp less
    obtain ⟨front, found⟩ := List.getElem?_of_mem hv
    obtain ⟨inside, -⟩ := List.getElem?_eq_some_iff.mp found
    have bound : front < place := by
      rw [List.length_take] at inside
      omega
    rw [List.getElem?_take_of_lt bound] at found
    exact ⟨front, value, Nat.le_of_lt bound, found, other, same⟩

theorem Synced.not_misnumbers (h : Synced e) (read : e.features = .ok items)
    (agree : ∀ place item, items[place]? = some item →
      e.hidden.contains (key (Feature.hash item) (occurrence (items.take place) item)) =
        e.hidesOwn items place) : ¬e.Misnumbers items := by
  rintro ⟨place, later, value, object, behind, there, found, other, same, hides⟩
  -- The object would be left out by the key of a later one, and that by the key of one still later.
  induction left : items.length - later using Nat.strong_induction_on generalizing later object with
  | _ left ih =>
    obtain ⟨inside, -⟩ := List.getElem?_eq_some_iff.mp found
    have front : value ∈ items.take later :=
      List.mem_of_getElem? ((List.getElem?_take_of_lt behind).trans there)
    have shifted := Feature.ownOccurrence_lt_iff.mpr ⟨value, front, other, same⟩
    rw [← agree later object found, HiddenSet.contains_iff] at hides
    obtain ⟨next, another, order, at_, twin, hides⟩ :=
      h.exists_later read found (.inr shifted) hides
    exact ih (items.length - next) (by omega) next another (behind.trans order) at_
      (same.trans twin.symm) hides rfl

theorem Synced.hiddenFlags_eq_ownFlags_iff (h : Synced e) (read : e.features = .ok items) :
    e.hiddenFlags items = e.ownFlags items ↔ ¬e.Misnumbers items := by
  rw [hiddenFlags_eq_ownFlags_iff_forall]
  refine ⟨h.not_misnumbers read, fun numbered place item there => ?_⟩
  by_cases shifted : item.isObject = false ∨
      ownOccurrence (items.take place) item < occurrence (items.take place) item
  · obtain ⟨front, value, le, found, other, same⟩ := exists_value_in_front there shifted
    have left : e.hidden.contains
        (key (Feature.hash item) (occurrence (items.take place) item)) = false := by
      rw [Bool.eq_false_iff, ne_eq, HiddenSet.contains_iff]
      intro hidden
      obtain ⟨later, object, order, at_, twin, hides⟩ := h.exists_later read there shifted hidden
      exact numbered ⟨front, later, value, object, Nat.lt_of_le_of_lt le order, found, at_, other,
        same.trans twin.symm, hides⟩
    have own : e.hidesOwn items place = false := by
      rw [Bool.eq_false_iff]
      intro hides
      have fits := ((h.hidesOwn_iff read there).mp hides).1
      have apart : front ≠ place := by
        rintro rfl
        rw [there] at found
        rw [← Option.some.inj found, fits] at other
        cases other
      exact numbered ⟨front, place, value, item, Nat.lt_of_le_of_ne le apart, found, there, other,
        same, hides⟩
    rw [left, own]
  · rw [not_or, Bool.not_eq_false] at shifted
    have same := Nat.le_antisymm (Nat.not_lt.mp shifted.2)
      (Feature.ownOccurrence_le (items.take place) item)
    rw [Bool.eq_iff_iff, h.hidesOwn_iff read there, HiddenSet.contains_iff, same]
    simp [shifted.1]

/-- A file leaves out the items with a hidden key of their own number. These are the ones with a
hidden range exactly if no such object stands behind another value with its hash. -/
theorem save_leaves_out_own_iff (reachable : e.Reachable) (read : e.features = .ok items)
    (name : Option Text) :
    (∃ places, FeatureRange.outerObjects 0 none (Token.placed e.buffer.lines) = some places ∧
      e.ranges = FeatureRange.ofObjects e.buffer.lines places ∧
      List.Forall₂ (fun o object =>
        Json.parse (FeatureRange.textOf e.buffer.lines o.1 o.2) = .ok object) places
        (items.filter Json.isObject)) ∧
    e.save name = .ok ⟨name.getD e.options.saveName,
      (Feature.collection (unflagged items (e.hiddenFlags items))).format
        e.options.indentWidth 0⟩ ∧
    (e.hiddenFlags items = e.ownFlags items ↔ ¬e.Misnumbers items) := by
  have synced := reachable.synced
  refine ⟨?_, save_of_features read name, synced.hiddenFlags_eq_ownFlags_iff read⟩
  obtain ⟨found, texts⟩ := synced.parse_objectPlaces read
  refine ⟨e.objectPlaces, found, ?_, texts⟩
  rw [synced.ranges, if_pos (synced.outline_balanced read),
    FeatureRange.ofLines_eq_ofObjects found]

theorem save_leaves_out_own_iff_withHiddenTwin :
    withHiddenTwin.hiddenFlags twins = withHiddenTwin.ownFlags twins ∧
      ∃ file, withHiddenTwin.save none = .ok file ∧ file.content =
        (Feature.collection [numbered 1]).format withHiddenTwin.options.indentWidth 0 := by
  obtain ⟨-, saved, numbered⟩ :=
    save_leaves_out_own_iff reachable_withHiddenTwin features_withHiddenTwin none
  have objects : ∀ feature ∈ twins, feature.isObject := by decide
  have flags := reachable_withHiddenTwin.synced.rangeFlags_eq features_withHiddenTwin fun f hf =>
    Json.isObject_iff.mp (objects f hf)
  rw [← flags, rangeFlags_withHiddenTwin] at saved
  refine ⟨numbered.mpr ?_, _, saved, rfl⟩
  rintro ⟨place, later, value, object, -, there, -, other, -⟩
  rw [objects value (List.mem_of_getElem? there)] at other
  cases other

def one : Json := .number (.integer 1)

def withHiddenEmpty : Editor :=
  ((ofText .default .still (formatFeatures 4 [one, .object []])).execute
    (.toggleVisibility (key (Feature.hash (.object [])) 0))).1

theorem isWritable_one : IsWritable [one, .object []] where
  distinct := by decide
  exact := by
    have := Json.hasExactNumbers_number_iff.mpr
      (Number.readsBack_integer (by decide : -0x8000000000000000 ≤ (1 : Int)) (by decide))
    simpa [one, Json.hasExactNumbers_object_iff] using this
  room := by decide

theorem features_withHiddenEmpty : withHiddenEmpty.features = .ok [one, .object []] := by
  have read := features_ofText .default .still 4 isWritable_one
  rw [features_eq_ok_iff] at read ⊢
  rwa [withHiddenEmpty, execute, andAnswer, buffer_toggleVisibility]

theorem hidden_withHiddenEmpty :
    withHiddenEmpty.hidden = ⟨[key (Feature.hash (.object [])) 0]⟩ := by
  have synced : Synced (ofText .default .still (formatFeatures 4 [one, .object []])) :=
    (Reachable.ofText ..).synced
  have keys := synced.map_key_ranges_filter (features_ofText .default .still 4 isWritable_one)
  have live : key (Feature.hash (.object [])) 0 ∈ (ofText .default .still
      (formatFeatures 4 [one, .object []])).ranges.map FeatureRange.key := by
    rw [keys]
    exact List.mem_singleton_self _
  rw [withHiddenEmpty, execute, andAnswer, hidden_toggleVisibility live, hidden_ofText]
  rfl

/-- The hidden object is saved, and the number in front of it is left out. -/
theorem hidden_object_is_saved :
    withHiddenEmpty.Reachable ∧ withHiddenEmpty.features = .ok [one, .object []] ∧
    withHiddenEmpty.ownFlags [one, .object []] = [false, true] ∧
    ∃ file, withHiddenEmpty.save none = .ok file ∧ file.content =
      (Feature.collection [.object []]).format withHiddenEmpty.options.indentWidth 0 := by
  have reachable : withHiddenEmpty.Reachable := .step _ (.ofText ..)
  have digest : Feature.hash one = Feature.hash (.object []) := hash_of_not_object rfl
  have keys : Feature.keys [one, .object []] =
      [key (Feature.hash (.object [])) 0, key (Feature.hash (.object [])) 1] := by
    simp [Feature.keys, Feature.keysAfter, digest]
  have other : key (Feature.hash (.object [])) 1 ≠ key (Feature.hash (.object [])) 0 := fun same =>
    absurd (Feature.key_injective same).2 (by decide)
  have flags : withHiddenEmpty.hiddenFlags [one, .object []] = [true, false] := by
    simp [hiddenFlags, hidden_withHiddenEmpty, keys, HiddenSet.contains, other]
  have own (place : Nat) (item : Json) (there : [one, .object []][place]? = some item) :=
    reachable.synced.hidesOwn_iff features_withHiddenEmpty there
  have first : withHiddenEmpty.hidesOwn [one, .object []] 0 = false :=
    Bool.eq_false_iff.mpr fun hides => by cases ((own 0 one rfl).mp hides).1
  have second : withHiddenEmpty.hidesOwn [one, .object []] 1 = true := by
    rw [own 1 (.object []) rfl, hidden_withHiddenEmpty]
    exact ⟨rfl, List.mem_singleton_self _⟩
  have saved := save_of_features features_withHiddenEmpty none
  rw [flags] at saved
  refine ⟨reachable, features_withHiddenEmpty, ?_, _, saved, rfl⟩
  rw [← first, ← second]
  rfl

end FeatureText.Editor
