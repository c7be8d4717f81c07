import FeatureText.View.Inline
import Mathlib.Data.List.TakeWhile

/-! What a reader of values takes for a value: a key in quotes, a colon, and the value behind them.
The readers of booleans and of colors are told apart by how a value is written and by what may stand
behind it, so both have one law. -/
namespace FeatureText

namespace Inline

def IsBlank (text : Text) : Prop := ∀ c ∈ text, Unicode.isWhiteSpace c

/-- A key in quotes and a colon, with blanks on both sides of the colon. -/
structure IsLabel (key label : Text) : Prop where
  named : key ≠ []
  plain : ∀ c ∈ key, isKeyChar c
  spelled : ∃ before after, IsBlank before ∧ IsBlank after ∧
    label = '"' :: (key ++ '"' :: (before ++ ':' :: after))

section Label

variable {key label rest front : Text} {p : Char → Bool}

theorem takeWhile_append_stop (all : ∀ c ∈ front, p c) (stop : ¬rest.head?.any p) :
    (front ++ rest).takeWhile p = front := by
  rw [List.takeWhile_append_of_pos all]
  cases rest with
  | nil => simp
  | cons c rest => rw [List.takeWhile_cons_of_neg (by simpa using stop), List.append_nil]

theorem skipBlank_append (blank : IsBlank front) (stop : ¬rest.head?.any Unicode.isWhiteSpace) :
    skipBlank (front ++ rest) = rest := by
  rw [skipBlank, List.dropWhile_append_of_pos blank]
  cases rest with
  | nil => rfl
  | cons c rest => rw [List.dropWhile_cons_of_neg (by simpa using stop)]

theorem exists_skipBlank (text : Line) :
    ∃ blank, IsBlank blank ∧ text = blank ++ skipBlank text ∧
      ¬(skipBlank text).head?.any Unicode.isWhiteSpace := by
  refine ⟨text.takeWhile Unicode.isWhiteSpace, fun _ hc => List.mem_takeWhile_imp hc,
    List.takeWhile_append_dropWhile.symm, ?_⟩
  have stop := List.head?_dropWhile_not Unicode.isWhiteSpace text
  rw [skipBlank]
  cases first : (text.dropWhile Unicode.isWhiteSpace).head? with
  | none => simp
  | some c =>
    rw [first] at stop
    simpa using stop

theorem drop_length_takeWhile (p : Char → Bool) (text : Text) :
    text.drop (text.takeWhile p).length = text.dropWhile p := by
  calc text.drop (text.takeWhile p).length
    _ = (text.takeWhile p ++ text.dropWhile p).drop (text.takeWhile p).length := by
      rw [List.takeWhile_append_dropWhile]
    _ = text.dropWhile p := List.drop_left

/-- A key is read with its label, and that as far as its blanks go. -/
theorem keyAt?_eq_some_iff {line : Line} :
    keyAt? line = some (key, rest) ↔ ∃ label, IsLabel key label ∧ line = label ++ rest ∧
      ¬rest.head?.any Unicode.isWhiteSpace := by
  constructor
  · intro h
    unfold keyAt? at h
    split at h
    · next text =>
      simp only [drop_length_takeWhile] at h
      have cut := List.takeWhile_append_dropWhile (p := isKeyChar) (l := text)
      split at h
      · next behind quoted =>
        rw [quoted] at cut
        split at h
        · next later colon =>
          split at h
          · cases h
          · next named =>
            cases h
            obtain ⟨before, blankBefore, spelledBefore, -⟩ := exists_skipBlank behind
            obtain ⟨after, blankAfter, spelledAfter, stop⟩ := exists_skipBlank later
            rw [colon, spelledAfter] at spelledBefore
            rw [spelledBefore] at cut
            refine ⟨_, ⟨by simpa using named, fun _ hc => List.mem_takeWhile_imp hc, before, after,
              blankBefore, blankAfter, rfl⟩, ?_, stop⟩
            simpa using cut.symm
        · cases h
      · cases h
    · cases h
  · rintro ⟨label, ⟨named, plain, before, after, blankBefore, blankAfter, rfl⟩, rfl, stop⟩
    have key : (key ++ '"' :: (before ++ ':' :: (after ++ rest))).takeWhile isKeyChar = key :=
      takeWhile_append_stop plain (by simp [isKeyChar])
    have colon : skipBlank (before ++ ':' :: (after ++ rest)) = ':' :: (after ++ rest) :=
      skipBlank_append blankBefore (by rw [List.head?_cons]; decide)
    simp [keyAt?, key, colon, skipBlank_append blankAfter stop, named]

theorem IsLabel.ne_nil (h : IsLabel key label) : label ≠ [] := by
  obtain ⟨_, _, -, -, rfl⟩ := h.spelled
  exact List.cons_ne_nil _ _

theorem IsLabel.count_quote (h : IsLabel key label) : label.count '"' = 2 := by
  obtain ⟨before, after, blankBefore, blankAfter, rfl⟩ := h.spelled
  have key : key.count '"' = 0 := List.count_eq_zero.mpr fun hc => absurd (h.plain _ hc) (by decide)
  have none {blank : Text} (h : IsBlank blank) : blank.count '"' = 0 :=
    List.count_eq_zero.mpr fun hc => by simpa [Unicode.isWhiteSpace_quote] using h _ hc
  simp [key, none blankBefore, none blankAfter]

end Label

/-- How the values of one kind are written behind their labels. -/
structure Style (α : Type) where
  mark : Text
  text : α → Text
  fits : α → Bool
  stops : Option Char → Bool

/-- A value stands on a line: its label is in front of it, and other parts of the line are in front
of the label and behind the value. -/
structure Style.Stands {α : Type} (style : Style α) (front label : Text) (found : Found α)
    (back line : Line) : Prop where
  labelled : IsLabel found.key label
  fits : style.fits found.value
  stops : style.stops back.head?
  start : found.start = (front ++ label ++ style.mark).length
  stop : found.stop = found.start + (style.text found.value).length
  line : line = front ++ label ++ style.mark ++ style.text found.value ++ back

/-- One kind of values: how they are written, how they are read, and which of them are shown. -/
structure Form (α : Type) extends Style α where
  read : Line → Option (Found α × Nat)
  shows : α → Bool
  reads {line : Line} {found : Found α} {length : Nat} : read line = some (found, length) ↔
    ∃ label back, toStyle.Stands [] label found back line ∧ length = found.stop + mark.length
  mark_quotes : ∀ c ∈ mark, '"' = c
  plain {value : α} : fits value → '"' ∉ text value
  fits_of_shows {value : α} : shows value → fits value

def word : Bool → Text
  | true => ['t', 'r', 'u', 'e']
  | false => ['f', 'a', 'l', 's', 'e']

def booleanStyle : Style Bool where
  mark := []
  text := word
  fits _ := true
  stops next := !next.any Unicode.isWordConstituent

def colorStyle : Style Text where
  mark := ['"']
  text := id
  fits := looksLikeColor
  stops next := next == some '"'

theorem literal?_eq_some_iff {line rest : Line} {value : Bool} {length : Nat} :
    literal? line = some (value, length, rest) ↔
      line = word value ++ rest ∧ length = (word value).length := by
  constructor
  · intro h
    unfold literal? at h
    split at h
    · cases h
      exact ⟨rfl, rfl⟩
    · cases h
      exact ⟨rfl, rfl⟩
    · cases h
  · rintro ⟨rfl, rfl⟩
    cases value <;> rfl

theorem isKeyChar_of_class {p : Char → Bool} {c : Char} (quote : p '"' = false)
    (escape : p '\\' = false) (h : p c) : isKeyChar c := by
  have other {d : Char} (hd : p d = false) : c ≠ d := by
    rintro rfl
    exact Bool.noConfusion (h.symm.trans hd)
  simp [isKeyChar, other quote, other escape]

theorem isKeyChar_of_looksLikeColor {value : Text} (h : looksLikeColor value) {c : Char}
    (hc : c ∈ value) : isKeyChar c := by
  rcases Bool.or_eq_true_iff.mp h with hex | letters
  · unfold isHexColor at hex
    split at hex
    · next digits =>
      rcases List.mem_cons.mp hc with rfl | hc
      · rfl
      · have digit := List.all_eq_true.mp (Bool.and_eq_true_iff.mp hex).2 c hc
        exact isKeyChar_of_class rfl rfl digit
    · cases hex
  · have letter := List.all_eq_true.mp (Bool.and_eq_true_iff.mp letters).2 c hc
    exact isKeyChar_of_class rfl rfl letter

theorem booleanAt?_eq_some_iff {line : Line} {found : Found Bool} {length : Nat} :
    booleanAt? line = some (found, length) ↔
      ∃ label back, booleanStyle.Stands [] label found back line ∧
        length = found.stop + booleanStyle.mark.length := by
  simp only [booleanAt?, Option.bind_eq_bind, Option.bind_eq_some_iff, Prod.exists,
    keyAt?_eq_some_iff, literal?_eq_some_iff]
  constructor
  · rintro ⟨key, _, ⟨label, labelled, rfl, -⟩, value, _, back, ⟨rfl, rfl⟩, h⟩
    split at h
    · next ends =>
      cases h
      refine ⟨label, back, ⟨labelled, rfl, ends, ?_, rfl, ?_⟩, rfl⟩
      · simp [booleanStyle]
      · simp [booleanStyle]
    · cases h
  · obtain ⟨key, value, start, stop⟩ := found
    rintro ⟨label, back, ⟨labelled, -, ends, begins, stops, rfl⟩, rfl⟩
    simp only at begins stops
    subst begins stops
    have head : (word value ++ back).head? = (word value).head? := by cases value <;> rfl
    have ends : atWordEnd back := ends
    refine ⟨key, word value ++ back, ⟨label, labelled, ?_, ?_⟩, value, _, back, ⟨rfl, rfl⟩, ?_⟩
    · simp [booleanStyle]
    · rw [head]
      cases value <;> decide
    · simp [booleanStyle, ends]

theorem colorAt?_eq_some_iff {line : Line} {found : Found Text} {length : Nat} :
    colorAt? line = some (found, length) ↔
      ∃ label back, colorStyle.Stands [] label found back line ∧
        length = found.stop + colorStyle.mark.length := by
  simp only [colorAt?, Option.bind_eq_bind, Option.bind_eq_some_iff, Prod.exists,
    keyAt?_eq_some_iff]
  constructor
  · rintro ⟨key, rest, ⟨label, labelled, rfl, -⟩, h⟩
    split at h
    · next text =>
      simp only [drop_length_takeWhile] at h
      split at h
      · next there =>
        cases h
        refine ⟨label, text.dropWhile isKeyChar,
          ⟨labelled, there.2, beq_iff_eq.mpr there.1, ?_, rfl, ?_⟩, rfl⟩
        · simp only [List.length_append, List.length_cons, colorStyle, List.length_nil]
          omega
        · simp [colorStyle]
      · cases h
    · cases h
  · obtain ⟨key, value, start, stop⟩ := found
    rintro ⟨label, back, ⟨labelled, fits, ends, begins, stops, rfl⟩, rfl⟩
    simp only at begins stops
    subst begins stops
    have ends : back.head? = some '"' := beq_iff_eq.mp ends
    have read : (value ++ back).takeWhile isKeyChar = value :=
      takeWhile_append_stop (fun _ hc => isKeyChar_of_looksLikeColor fits hc)
        (by simp [ends, isKeyChar])
    refine ⟨key, '"' :: (value ++ back), ⟨label, labelled, ?_, ?_⟩, ?_⟩
    · simp [colorStyle]
    · rw [List.head?_cons]
      decide
    · simp [colorStyle, read, ends, show looksLikeColor value from fits]
      omega

theorem namedColors_lower :
    ∀ name ∈ namedColors, name.toList ≠ [] ∧ name.toList.all Char.isLower := by
  decide +kernel

theorem isLetter_of_isLower_toLower {c : Char} (h : c.toLower.isLower) : isLetter c := by
  by_cases upper : c.isUpper
  · exact Bool.or_eq_true_iff.mpr (.inl upper)
  · have same : c.toLower = c := dif_neg fun range => upper (decide_eq_true range)
    exact Bool.or_eq_true_iff.mpr (.inr (same ▸ h))

theorem letters_of_isColorName {value : Text} (h : isColorName value) :
    value ≠ [] ∧ ∀ c ∈ value, isLetter c := by
  obtain ⟨some, lower⟩ := namedColors_lower _ (List.contains_iff_mem.mp h)
  rw [String.toList_ofList] at some lower
  refine ⟨fun none => some (by rw [none]; rfl), fun c hc => ?_⟩
  exact isLetter_of_isLower_toLower (List.all_eq_true.mp lower _ (List.mem_map_of_mem hc))

theorem looksLikeColor_of_isColor {value : Text} (h : isColor value) : looksLikeColor value := by
  unfold isColor at h
  split at h
  · exact Bool.or_eq_true_iff.mpr (.inl h)
  · obtain ⟨some, letters⟩ := letters_of_isColorName h
    refine Bool.or_eq_true_iff.mpr (.inr (Bool.and_eq_true_iff.mpr ⟨?_, ?_⟩))
    · simpa using some
    · exact List.all_eq_true.mpr letters

def booleanForm : Form Bool where
  toStyle := booleanStyle
  read := booleanAt?
  shows _ := true
  reads := booleanAt?_eq_some_iff
  mark_quotes := List.forall_mem_nil _
  plain {value} _ := by cases value <;> decide
  fits_of_shows _ := rfl

def colorForm : Form Text where
  toStyle := colorStyle
  read := colorAt?
  shows := isColor
  reads := colorAt?_eq_some_iff
  mark_quotes _ hc := (List.mem_singleton.mp hc).symm
  plain fits quote := Bool.noConfusion (isKeyChar_of_looksLikeColor fits quote)
  fits_of_shows := looksLikeColor_of_isColor

namespace Form

variable {α : Type} {form : Form α} {key label : Text}

theorem count_quote_mark (form : Form α) : form.mark.count '"' = form.mark.length :=
  List.count_eq_length.mpr form.mark_quotes

theorem read_append_of_read {front x y : Line} {r : Found α × Nat}
    (enough : 2 + form.mark.length < front.count '"') (h : form.read (front ++ x) = some r) :
    form.read (front ++ y) = some r := by
  obtain ⟨found, length⟩ := r
  obtain ⟨label, back, stands, length⟩ := form.reads.mp h
  have line : front ++ x = label ++ form.mark ++ form.text found.value ++ back := stands.line
  -- Up to its end a value has fewer quotes than the front, so it ends inside of the front.
  have quotes : (label ++ form.mark ++ form.text found.value).count '"' = 2 + form.mark.length := by
    rw [List.count_append, List.count_append, stands.labelled.count_quote, form.count_quote_mark,
      List.count_eq_zero.mpr (form.plain stands.fits), Nat.add_zero]
  have inside : label ++ form.mark ++ form.text found.value <+: front := by
    have first : label ++ form.mark ++ form.text found.value <+: front ++ x := ⟨back, line.symm⟩
    refine (List.prefix_or_prefix_of_prefix first (List.prefix_append front x)).resolve_right ?_
    intro longer
    have le := longer.sublist.count_le '"'
    omega
  obtain ⟨rest, rfl⟩ := inside
  have more : rest ≠ [] := by
    rintro rfl
    rw [List.append_nil] at enough
    omega
  obtain ⟨c, rest, rfl⟩ := List.exists_cons_of_ne_nil more
  have behind : c :: rest ++ x = back := by
    rw [List.append_assoc] at line
    exact List.append_cancel_left line
  have stops := stands.stops
  rw [← behind] at stops
  refine form.reads.mpr ⟨label, c :: rest ++ y, ⟨stands.labelled, stands.fits, stops, stands.start,
    stands.stop, ?_⟩, length⟩
  rw [List.append_assoc]
  rfl

/-- A reader sees no further than the quotes of a value go. -/
theorem read_append_congr {front : Line} (enough : 2 + form.mark.length < front.count '"')
    (x y : Line) : form.read (front ++ x) = form.read (front ++ y) :=
  Option.ext fun _ => ⟨read_append_of_read enough, read_append_of_read enough⟩

theorem read_cons_eq_none (form : Form α) {c : Char} (h : c ≠ '"') (rest : Line) :
    form.read (c :: rest) = none := by
  refine Option.eq_none_iff_forall_ne_some.mpr fun ⟨found, length⟩ read => ?_
  obtain ⟨label, back, stands, -⟩ := form.reads.mp read
  obtain ⟨_, _, -, -, rfl⟩ := stands.labelled.spelled
  exact h (List.cons.inj stands.line).1

theorem read_in_front {front : Line} (labelled : IsLabel key label) (some : front ≠ [])
    (x y : Line) :
    form.read (front ++ (label ++ form.mark ++ x)) =
      form.read (front ++ (label ++ form.mark ++ y)) := by
  obtain ⟨c, rest, rfl⟩ := List.exists_cons_of_ne_nil some
  by_cases quote : c = '"'
  · have enough : 2 + form.mark.length < (c :: rest ++ (label ++ form.mark)).count '"' := by
      rw [quote, List.count_append, List.count_append, labelled.count_quote, form.count_quote_mark,
        List.count_cons_self]
      omega
    simpa only [List.append_assoc] using read_append_congr enough x y
  · rw [List.cons_append, List.cons_append, form.read_cons_eq_none quote,
      form.read_cons_eq_none quote]

end Form

end Inline

end FeatureText
