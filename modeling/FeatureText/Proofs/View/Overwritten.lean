import FeatureText.Proofs.View.Inline

/-! What becomes of the values on a line when one of them is written over. The label of a value has
two quotes of its own, and a reader sees no further than the quotes of one value; so nothing that
begins in front of a value sees the value, and a search comes to it as before, whatever is written
there. -/
namespace FeatureText

namespace Inline

def Found.shift {α : Type} (offset : Nat) (found : Found α) : Found α :=
  ⟨found.key, found.value, offset + found.start, offset + found.stop⟩

def Found.content {α : Type} (found : Found α) : Text × α := (found.key, found.value)

section Search

variable {α : Type} {read : Line → Option (Found α × Nat)} {skip column : Nat} {line : Line}

theorem search_drop (read : Line → Option (Found α × Nat)) (skip column : Nat) (line : Line) :
    search read skip column line = search read 0 (column + skip) (line.drop skip) := by
  induction line generalizing skip column with
  | nil => simp [search]
  | cons c line ih =>
    cases skip with
    | zero => rfl
    | succ skip =>
      rw [search, ih, List.drop_succ_cons]
      congr 1
      omega

theorem search_shift (read : Line → Option (Found α × Nat)) (offset skip column : Nat)
    (line : Line) :
    search read skip (offset + column) line =
      (search read skip column line).map (Found.shift offset) := by
  induction line generalizing skip column with
  | nil => simp [search]
  | cons c line ih =>
    cases skip with
    | zero =>
      rw [search, search]
      split
      · rw [List.map_cons, ← ih]
        simp [Found.shift, Nat.add_assoc]
      · exact ih 0 (column + 1)
    | succ skip => exact ih skip (column + 1)

theorem search_of_read {found : Found α} {length : Nat} (h : read line = some (found, length))
    (some : 0 < length) (line_ne_nil : line ≠ []) :
    search read 0 column line =
      found.shift column :: search read 0 (column + length) (line.drop length) := by
  obtain ⟨c, rest, rfl⟩ := List.exists_cons_of_ne_nil line_ne_nil
  obtain ⟨more, rfl⟩ := Nat.exists_eq_succ_of_ne_zero (Nat.ne_of_gt some)
  rw [search, h]
  simp only
  rw [search_drop, Nat.succ_sub_one, Nat.succ_eq_add_one, List.drop_succ_cons]
  congr 2
  omega

/-- On every line with this front that reads alike in it, a search finds these values in the front
and starts afresh behind it. -/
def GetsTo (read : Line → Option (Found α × Nat)) (skip column : Nat) (front back : Line)
    (before : List (Found α)) : Prop :=
  ∀ other, (∀ t, t ≠ [] → t <:+ front → read (t ++ other) = read (t ++ back)) →
    search read skip column (front ++ other) =
      before ++ search read 0 (column + front.length) other

theorem GetsTo.cons {skip' : Nat} {c : Char} {front back : Line} {before : List (Found α)}
    (h : GetsTo read skip' (column + 1) front back before) (first : List (Found α))
    (step : ∀ other, read (c :: (front ++ other)) = read (c :: (front ++ back)) →
      search read skip column (c :: (front ++ other)) =
        first ++ search read skip' (column + 1) (front ++ other)) :
    GetsTo read skip column (c :: front) back (first ++ before) := by
  intro other alike
  have here := alike (c :: front) (List.cons_ne_nil c front) List.suffix_rfl
  have later := h other fun t some suffix => alike t some (suffix.trans (List.suffix_cons ..))
  have length : column + 1 + front.length = column + (c :: front).length := by
    rw [List.length_cons]
    omega
  rw [List.cons_append, step other here, later, length, List.append_assoc]

theorem exists_front_of_search {before later : List (Found α)} {found : Found α}
    (h : search read skip column line = before ++ found :: later) :
    ∃ front back, line = front ++ back ∧ (read back).isSome ∧
      GetsTo read skip column front back before := by
  -- The front grows at its start: what changes from one character to the next is the skipping.
  induction line generalizing skip column before with
  | nil => simp [search] at h
  | cons c rest ih =>
    cases skip with
    | succ skip =>
      obtain ⟨front, back, rfl, reads, reached⟩ := ih h
      exact ⟨c :: front, back, rfl, reads, reached.cons [] fun _ _ => rfl⟩
    | zero =>
      cases here : read (c :: rest) with
      | none =>
        rw [search, here] at h
        obtain ⟨front, back, rfl, reads, reached⟩ := ih h
        refine ⟨c :: front, back, rfl, reads, reached.cons [] fun other alike => ?_⟩
        rw [search, alike, here]
        rfl
      | some first =>
        obtain ⟨first, length⟩ := first
        cases before with
        | nil => exact ⟨[], c :: rest, rfl, by rw [here]; rfl, fun _ _ => rfl⟩
        | cons value before =>
          rw [search, here, List.cons_append, List.cons.injEq] at h
          obtain ⟨rfl, h⟩ := h
          obtain ⟨front, back, rfl, reads, reached⟩ := ih h
          refine ⟨c :: front, back, rfl, reads, reached.cons [_] fun other alike => ?_⟩
          rw [search, alike, here]
          rfl

end Search

theorem exists_append_of_getElem?_filter {β : Type} {p : β → Bool} {l : List β} {i : Nat} {a : β}
    (h : (l.filter p)[i]? = some a) :
    ∃ before later, l = before ++ a :: later ∧ (before.filter p).length = i ∧ p a := by
  obtain ⟨inside, here⟩ := List.getElem?_eq_some_iff.mp h
  have parts : l.filter p = (l.filter p).take i ++ a :: (l.filter p).drop (i + 1) := by
    rw [← here, ← List.drop_eq_getElem_cons inside, List.take_append_drop]
  obtain ⟨first, rest, rfl, front, back⟩ := List.filter_eq_append_iff.mp parts
  obtain ⟨passed, later, rfl, none, shown, -⟩ := List.filter_eq_cons_iff.mp back
  refine ⟨first ++ passed, later, by rw [List.append_assoc], ?_, shown⟩
  rw [List.filter_append, List.filter_eq_nil_iff.mpr none, List.append_nil, front,
    List.length_take_of_le (Nat.le_of_lt inside)]

namespace Form

variable {α : Type} {form : Form α} {key label : Text} {back line : Line} {found : Found α}

def find (form : Form α) (line : Line) : List (Found α) :=
  (search form.read 0 0 line).filter fun found => form.shows found.value

theorem find_booleanForm (line : Line) : booleanForm.find line = booleans line :=
  List.filter_eq_self.mpr fun _ _ => rfl

theorem search_behind_label {skip column : Nat} {front x : Line} {before : List (Found α)}
    (h : GetsTo form.read skip column front (label ++ form.mark ++ x) before)
    (labelled : IsLabel key label) (y : Line) :
    search form.read skip column (front ++ (label ++ form.mark ++ y)) =
      before ++ search form.read 0 (column + front.length) (label ++ form.mark ++ y) :=
  h _ fun _ some _ => read_in_front labelled some y x

theorem search_of_stands (stands : form.Stands [] label found back line) (column : Nat) :
    search form.read 0 column line = found.shift column ::
      (search form.read 0 form.mark.length (back.drop form.mark.length)).map
        (Found.shift (column + found.stop)) := by
  have start : found.start = (label ++ form.mark).length := stands.start
  have line_eq : line = label ++ form.mark ++ form.text found.value ++ back := stands.line
  have label_pos := List.length_pos_iff.mpr stands.labelled.ne_nil
  have read := form.reads.mpr ⟨label, back, stands, rfl⟩
  have stop : found.stop = (label ++ form.mark ++ form.text found.value).length := by
    rw [stands.stop, start]
    exact List.length_append.symm
  have rest : line.drop (found.stop + form.mark.length) = back.drop form.mark.length := by
    rw [line_eq, stop, ← List.drop_drop, List.drop_left]
  rw [search_of_read read, rest, ← Nat.add_assoc, search_shift]
  · rw [stop, List.length_append, List.length_append]
    omega
  · rw [line_eq]
    simp [stands.labelled.ne_nil]

/-- Whatever is written where a value is found is found there, between the same values. -/
theorem exists_stands_of_search {before later : List (Found α)}
    (h : search form.read 0 0 line = before ++ found :: later) :
    ∃ front label back, form.Stands front label found back line ∧ ∀ value, form.fits value →
      search form.read 0 0 (front ++ label ++ form.mark ++ form.text value ++ back) =
        before ++ ⟨found.key, value, found.start, found.start + (form.text value).length⟩ ::
          (search form.read 0 form.mark.length (back.drop form.mark.length)).map
            (Found.shift (found.start + (form.text value).length)) := by
  obtain ⟨front, rest, rfl, some, reached⟩ := exists_front_of_search h
  obtain ⟨⟨near, length⟩, read⟩ := Option.isSome_iff_exists.mp some
  obtain ⟨label, back, stands, -⟩ := form.reads.mp read
  obtain rfl : rest = label ++ form.mark ++ (form.text near.value ++ back) := by
    simpa using stands.line
  have found_eq : near.shift front.length = found := by
    have cut := h
    rw [search_behind_label reached stands.labelled, search_of_stands stands, Nat.zero_add] at cut
    exact (List.cons.inj (List.append_cancel_left cut)).1
  subst found_eq
  have start : near.start = (label ++ form.mark).length := stands.start
  refine ⟨front, label, back, ⟨stands.labelled, stands.fits, stands.stops, ?_, ?_, ?_⟩, ?_⟩
  · simp [Found.shift, start]
  · simp [Found.shift, stands.stop, Nat.add_assoc]
  · simp [Found.shift]
  · intro value fits
    have rewritten : form.Stands [] label
        ⟨near.key, value, near.start, near.start + (form.text value).length⟩ back
        (label ++ form.mark ++ (form.text value ++ back)) :=
      ⟨stands.labelled, fits, stands.stops, stands.start, rfl, by simp⟩
    have line : front ++ label ++ form.mark ++ form.text value ++ back =
        front ++ (label ++ form.mark ++ (form.text value ++ back)) := by simp
    rw [line, search_behind_label reached stands.labelled, search_of_stands rewritten]
    simp [Found.shift, Nat.add_assoc]

theorem exists_stands_of_mem (h : found ∈ form.find line) :
    ∃ front label back, form.Stands front label found back line := by
  obtain ⟨before, later, parts⟩ := List.append_of_mem (List.mem_filter.mp h).1
  obtain ⟨front, label, back, stands, -⟩ := exists_stands_of_search parts
  exact ⟨front, label, back, stands⟩

theorem exists_find_eq {i : Nat} (h : (form.find line)[i]? = some found) :
    form.shows found.value ∧ ∃ front back before later,
      line = front ++ form.text found.value ++ back ∧ found.start = front.length ∧
      found.stop = front.length + (form.text found.value).length ∧ before.length = i ∧
      ∀ value, form.shows value → form.find (front ++ form.text value ++ back) =
        before ++ ⟨found.key, value, front.length, front.length + (form.text value).length⟩ ::
          List.map (Found.shift (front.length + (form.text value).length)) later := by
  obtain ⟨first, rest, parts, count, shown⟩ := exists_append_of_getElem?_filter h
  obtain ⟨front, label, back, stands, rewritten⟩ := exists_stands_of_search parts
  refine ⟨shown, front ++ label ++ form.mark, back,
    first.filter fun found => form.shows found.value,
    (search form.read 0 form.mark.length (back.drop form.mark.length)).filter
      fun found => form.shows found.value, stands.line, stands.start, ?_, count, ?_⟩
  · rw [stands.stop, stands.start]
  · intro value shows
    rw [find, rewritten value (form.fits_of_shows shows), List.filter_append,
      List.filter_cons_of_pos (by exact shows), List.filter_map, stands.start]
    rfl

end Form

end Inline

end FeatureText
