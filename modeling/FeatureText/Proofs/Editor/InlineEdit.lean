import FeatureText.Proofs.Editor.Synced
import FeatureText.Proofs.View.Overwritten
import FeatureText.Proofs.View.Visible

/-! Values changed in place. Only the characters of the value are others afterwards, and only that
value is shown as another; so it is found again at the same index, and writing the old value over it
brings the old text back. -/
namespace FeatureText

open Inline

namespace Buffer

variable {b : Buffer} {front old back : Line} {index : Nat}

theorem lines_replaceInLine? (there : b.line? index = some (front ++ old ++ back)) (text : Text) :
    ((b.replaceInLine? index front.length (front.length + old.length) text).getD b).lines =
      b.lines.set index (front ++ text ++ back) := by
  have inside : index < b.lineCount := (List.getElem?_eq_some_iff.mp there).1
  have line : b.lines[index]? = some (front ++ old ++ back) := there
  have stop : max front.length (front.length + old.length) = (front ++ old).length := by
    rw [List.length_append]
    omega
  rw [replaceInLine?, if_pos inside, Option.getD_some]
  simp only
  rw [List.modify_eq_set, line, Option.getD_some, stop, List.drop_left, List.append_assoc front old,
    List.take_left]

end Buffer

namespace Editor

variable {e e' : Editor} {line index : Nat} {α : Type} {found : Found α} {value : α}

/-- The values of one kind that are shown on a line, none on a line that is not there. -/
def shownOn (e : Editor) (values : LineMeta → List (Found α)) (line : Nat) : List (Found α) :=
  (e.metas[line]?.map values).getD []

structure Overwrites (text : α → Text) (values : LineMeta → List (Found α)) (line index : Nat)
    (found : Found α) (value : α) (e e' : Editor) : Prop where
  there : (e.shownOn values line)[index]? = some found
  lines : ∃ front back, e.buffer.line? line = some (front ++ text found.value ++ back) ∧
    found.start = front.length ∧ found.stop = front.length + (text found.value).length ∧
    e'.buffer.lines = e.buffer.lines.set line (front ++ text value ++ back)
  contents : (e'.shownOn values line).map Found.content =
    ((e.shownOn values line).map Found.content).set index (found.key, value)

theorem getElem?_shownOn (e : Editor) (values : LineMeta → List (Found α)) (line index : Nat) :
    (e.shownOn values line)[index]? = (e.metas[line]?).bind fun info => (values info)[index]? := by
  unfold shownOn
  cases e.metas[line]? <;> rfl

theorem flipBoolean_eq_iff :
    e.flipBoolean line index = (e', true) ↔
      ∃ found, (e.shownOn LineMeta.booleans line)[index]? = some found ∧
        e' = e.overwrite line found (word !found.value) := by
  rw [getElem?_shownOn, ← booleanAt?, flipBoolean]
  cases e.booleanAt? line index with
  | none => simp
  | some found =>
    have text : (if found.value then ['f', 'a', 'l', 's', 'e'] else ['t', 'r', 'u', 'e']) =
        word !found.value := by cases found.value <;> rfl
    simp only [text, Prod.mk.injEq, and_true, Option.some.injEq, exists_eq_left']
    exact eq_comm

theorem setColor_eq_iff {value : Text} :
    e.setColor line index value = (e', true) ↔
      ∃ found, (e.shownOn LineMeta.colors line)[index]? = some found ∧ isColor value ∧
        found.value ≠ value ∧ e' = e.overwrite line found value := by
  rw [getElem?_shownOn, ← colorAt?, setColor]
  cases e.colorAt? line index with
  | none => simp
  | some found =>
    have changes : (isColor value && found.value != value) = true ↔
        isColor value ∧ found.value ≠ value := by simp
    simp only [changes, Option.some.injEq, exists_eq_left']
    split
    · next change =>
      exact ⟨fun same => ⟨change.1, change.2, (Prod.mk.inj same).1.symm⟩,
        fun ⟨_, _, same⟩ => by rw [same]⟩
    · next same =>
      simp only [Prod.mk.injEq, Bool.false_eq_true, and_false, false_iff]
      rintro ⟨color, other, -⟩
      exact same ⟨color, other⟩

section Overwrite

variable {form : Form α} {values : LineMeta → List (Found α)}

def Shows (form : Form α) (values : LineMeta → List (Found α)) : Prop :=
  ∀ o ranges hidden index text, values (View.lineMeta o ranges hidden index text) = form.find text

theorem shows_booleans : Shows booleanForm LineMeta.booleans :=
  fun _ _ _ _ text => (Form.find_booleanForm text).symm

theorem shows_colors : Shows colorForm LineMeta.colors :=
  fun _ _ _ _ _ => rfl

theorem Synced.shownOn_eq (h : e.Synced) (shows : Shows form values) (line : Nat) :
    e.shownOn values line = form.find (e.buffer.lineAt line) := by
  rw [shownOn, h.metas, View.getElem?_lineMetas, Buffer.lineAt, List.getD_eq_getElem?_getD]
  cases e.buffer.lines[line]? with
  | none => rfl
  | some text => exact shows ..

theorem line?_of_getElem?_find {b : Buffer}
    (there : (form.find (b.lineAt line))[index]? = some found) :
    b.line? line = some (b.lineAt line) := by
  rw [Buffer.line?, Buffer.lineAt, List.getD_eq_getElem?_getD] at *
  cases here : b.lines[line]? with
  | none =>
    rw [here] at there
    cases there
  | some text => rfl

theorem lines_overwrite {front old back : Line}
    (there : e.buffer.line? line = some (front ++ old ++ back)) (start : found.start = front.length)
    (stop : found.stop = front.length + old.length) (new : Line) :
    (e.overwrite line found new).buffer.lines = e.buffer.lines.set line (front ++ new ++ back) := by
  rw [overwrite, buffer_settle, start, stop]
  exact Buffer.lines_replaceInLine? there new

theorem overwrite_exact (shows : Shows form values) (synced : e.Synced)
    (there : (e.shownOn values line)[index]? = some found) (fits : form.shows value)
    (e'_eq : e' = e.overwrite line found (form.text value)) (synced' : e'.Synced) :
    form.shows found.value ∧ Overwrites form.text values line index found value e e' ∧
      ∃ again, (e'.shownOn values line)[index]? = some again ∧ again.value = value ∧
        (e'.overwrite line again (form.text found.value)).buffer = e.buffer := by
  have here := there
  rw [synced.shownOn_eq shows] at here
  obtain ⟨old, front, back, before, later, line_eq, start, stop, rfl, found_in⟩ :=
    Form.exists_find_eq here
  have line_there := line?_of_getElem?_find here
  rw [line_eq] at line_there
  have lines := lines_overwrite line_there start stop (form.text value)
  rw [← e'_eq] at lines
  have line_there' : e'.buffer.line? line = some (front ++ form.text value ++ back) := by
    rw [Buffer.line?, lines, List.getElem?_set_self]
    exact (List.getElem?_eq_some_iff.mp line_there).1
  have found_before : e.shownOn values line = before ++ ⟨found.key, found.value, front.length,
      front.length + (form.text found.value).length⟩ ::
        List.map (Found.shift (front.length + (form.text found.value).length)) later := by
    rw [synced.shownOn_eq shows, line_eq, found_in _ old]
  have found_after : e'.shownOn values line = before ++ ⟨found.key, value, front.length,
      front.length + (form.text value).length⟩ ::
        List.map (Found.shift (front.length + (form.text value).length)) later := by
    rw [synced'.shownOn_eq shows, Buffer.lineAt, List.getD_eq_getElem?_getD, ← Buffer.line?,
      line_there', Option.getD_some, found_in _ fits]
  refine ⟨old, ⟨there, ⟨front, back, line_there, start, stop, lines⟩, ?_⟩,
    ⟨found.key, value, front.length, front.length + (form.text value).length⟩, ?_, rfl, ?_⟩
  · rw [found_before, found_after]
    simp [Found.content, Function.comp_def, Found.shift]
  · rw [found_after]
    simp
  · apply Buffer.ext
    rw [lines_overwrite line_there' rfl rfl _, lines, List.set_set]
    obtain ⟨inside, same⟩ := List.getElem?_eq_some_iff.mp line_there
    rw [← same]
    exact List.set_getElem_self inside

end Overwrite

/-- A flipped boolean and a changed color are other in their own characters only, nothing else is
shown differently, and the same control takes the change back. -/
theorem inline_edits_are_exact (h : e.Reachable) (line index : Nat) :
    (∀ e', e.flipBoolean line index = (e', true) →
      ∃ found, Overwrites word LineMeta.booleans line index found (!found.value) e e' ∧
        ∃ e'', e'.flipBoolean line index = (e'', true) ∧ e''.buffer = e.buffer) ∧
    ∀ value e', e.setColor line index value = (e', true) →
      ∃ found, Overwrites id LineMeta.colors line index found value e e' ∧
        ∃ e'', e'.setColor line index found.value = (e'', true) ∧ e''.buffer = e.buffer := by
  constructor
  · intro e' flips
    have after : (e.flipBoolean line index).1 = e' := congrArg Prod.fst flips
    have synced : e'.Synced := after ▸ (h.step (.flipBoolean line index)).synced
    obtain ⟨found, there, e'_eq⟩ := flipBoolean_eq_iff.mp flips
    obtain ⟨-, overwrites, again, found_again, flipped, restored⟩ :=
      overwrite_exact shows_booleans h.synced there rfl e'_eq synced
    refine ⟨found, overwrites, _, flipBoolean_eq_iff.mpr ⟨again, found_again, rfl⟩, ?_⟩
    rw [flipped, Bool.not_not]
    exact restored
  · intro value e' changes
    have after : (e.setColor line index value).1 = e' := congrArg Prod.fst changes
    have synced : e'.Synced := after ▸ (h.step (.setColor line index value)).synced
    obtain ⟨found, there, color, other, e'_eq⟩ := setColor_eq_iff.mp changes
    obtain ⟨old, overwrites, again, found_again, changed, restored⟩ :=
      overwrite_exact shows_colors h.synced there color e'_eq synced
    refine ⟨found, overwrites, _, setColor_eq_iff.mpr ⟨again, found_again, old, ?_, rfl⟩, restored⟩
    rw [changed]
    exact other.symm

def twoControls : Editor :=
  ofText .default .still
    ['"', 'o', 'n', '"', ':', 't', 'r', 'u', 'e', ',', '"', 'c', '"', ':', '"', 'r', 'e', 'd', '"']

theorem inline_edits_are_exact_twoControls :
    let flipped := (twoControls.flipBoolean 0 0).1
    let recolored := (twoControls.setColor 0 0 ['t', 'e', 'a', 'l']).1
    twoControls.Reachable ∧
      (∃ found, Overwrites word LineMeta.booleans 0 0 found (!found.value) twoControls flipped ∧
        (flipped.flipBoolean 0 0).1.buffer = twoControls.buffer) ∧
      ∃ found, Overwrites id LineMeta.colors 0 0 found ['t', 'e', 'a', 'l'] twoControls recolored ∧
        (recolored.setColor 0 0 found.value).1.buffer = twoControls.buffer := by
  intro flipped recolored
  have reachable : twoControls.Reachable := .ofText ..
  have flips : (twoControls.flipBoolean 0 0).2 = true := by decide +kernel
  have recolors : (twoControls.setColor 0 0 ['t', 'e', 'a', 'l']).2 = true := by decide +kernel
  obtain ⟨flip, recolor⟩ := inline_edits_are_exact reachable 0 0
  obtain ⟨flag, flagged, e₁, back₁, restored₁⟩ := flip flipped (Prod.ext rfl flips)
  obtain ⟨color, colored, e₂, back₂, restored₂⟩ := recolor _ recolored (Prod.ext rfl recolors)
  refine ⟨reachable, ⟨flag, flagged, ?_⟩, color, colored, ?_⟩
  · rw [back₁]
    exact restored₁
  · rw [back₂]
    exact restored₂

end Editor

end FeatureText
