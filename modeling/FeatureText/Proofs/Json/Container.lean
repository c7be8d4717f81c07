import FeatureText.Outline.Tree
import FeatureText.Proofs.Json.Format

/-! The containers of a value. Each goes by a name: that of the member that holds it, or inside a
list the name that the list goes by. Those that hold other values than scalars in a list are printed
on several lines. -/
namespace FeatureText

namespace Quoted

def spelling (text : Text) : Text := text.flatMap escape

def isPlain (c : Char) : Bool := c != '"' && c != '\\' && !isControl c

theorem escape_of_isPlain {c : Char} (h : isPlain c) : escape c = [c] := by
  simp only [isPlain, Bool.and_eq_true, bne_iff_ne, Bool.not_eq_true'] at h
  obtain ⟨⟨quote, backslash⟩, control⟩ := h
  have ne (other : Char) (found : isControl other) : c ≠ other := by
    rintro rfl
    exact Bool.false_ne_true (control.symm.trans found)
  simp [escape, quote, backslash, control, ne '\x08' rfl, ne '\t' rfl, ne '\n' rfl, ne '\x0c' rfl,
    ne '\r' rfl]

theorem spelling_eq_self {name : Text} (h : ∀ c ∈ name, isPlain c) :
    spelling name = name := by
  induction name with
  | nil => rfl
  | cons c name ih =>
    obtain ⟨first, rest⟩ := List.forall_mem_cons.mp h
    have more := ih rest
    rw [spelling] at more ⊢
    rw [List.flatMap_cons, escape_of_isPlain first, more]
    rfl

end Quoted

/-- An object or a list in a value. -/
structure Container where
  value : Json
  name : Text
  around : List Text

namespace Container

def bracket (c : Container) : Bracket :=
  match c.value with
  | .array _ => .square
  | _ => .brace

def depth (c : Container) : Nat := c.around.length

def key (c : Container) : Text := Quoted.spelling c.name

end Container

namespace Json

mutual

/-- The containers of a value that goes by a name, each in front of those inside it. -/
def containers (name : Text) (around : List Text) : Json → List Container
  | .array items => ⟨.array items, name, around⟩ :: containersOfItems name (name :: around) items
  | .object members =>
    ⟨.object members, name, around⟩ :: containersOfMembers (name :: around) members
  | _ => []

def containersOfItems (name : Text) (around : List Text) : List Json → List Container
  | [] => []
  | item :: items => item.containers name around ++ containersOfItems name around items

def containersOfMembers (around : List Text) : List (Text × Json) → List Container
  | [] => []
  | (name, value) :: members => value.containers name around ++ containersOfMembers around members

end

/-- The container is printed on several lines. -/
def isSpread : Json → Bool
  | .array items => items.any isContainer
  | .object members => !members.isEmpty
  | _ => false

def spread (name : Text) (around : List Text) (value : Json) : List Container :=
  (value.containers name around).filter (·.value.isSpread)

def spreads (values : List Json) : List Container :=
  (containersOfItems rootKey [] values).filter (·.value.isSpread)

variable (name : Text) (around : List Text)

theorem containersOfItems_eq_flatMap (items : List Json) :
    containersOfItems name around items = items.flatMap (containers name around) := by
  induction items with
  | nil => rfl
  | cons item items ih => rw [containersOfItems, ih, List.flatMap_cons]

theorem containersOfMembers_eq_flatMap (members : List (Text × Json)) :
    containersOfMembers around members =
      members.flatMap fun member => member.2.containers member.1 around := by
  induction members with
  | nil => rfl
  | cons member members ih => rw [containersOfMembers, ih, List.flatMap_cons]

theorem spreads_eq_flatMap (values : List Json) :
    spreads values = values.flatMap (spread rootKey []) := by
  rw [spreads, containersOfItems_eq_flatMap, List.filter_flatMap]
  rfl

theorem containers_eq_nil {value : Json} (h : value.isContainer = false) :
    value.containers name around = [] := by
  cases value with
  | array | object => cases h
  | _ => rfl

theorem spread_array {items : List Json} (h : items.any isContainer) :
    (array items).spread name around =
      ⟨.array items, name, around⟩ :: items.flatMap (spread name (name :: around)) := by
  rw [spread, containers, List.filter_cons_of_pos (by simpa [isSpread] using h),
    containersOfItems_eq_flatMap, List.filter_flatMap]
  rfl

theorem spread_array_of_flat {items : List Json} (h : items.any isContainer = false) :
    (array items).spread name around = [] := by
  have flat : ∀ item ∈ items, item.containers name (name :: around) = [] := fun item hi =>
    containers_eq_nil name _ (by simpa using List.any_eq_false.mp h item hi)
  rw [spread, containers, List.filter_cons_of_neg (by simp [isSpread, h]),
    containersOfItems_eq_flatMap, List.flatMap_eq_nil_iff.mpr flat, List.filter_nil]

theorem spread_object {members : List (Text × Json)} (h : members.isEmpty = false) :
    (object members).spread name around =
      ⟨.object members, name, around⟩ ::
        members.flatMap fun member => member.2.spread member.1 (name :: around) := by
  rw [spread, containers, List.filter_cons_of_pos (by simp [isSpread, h]),
    containersOfMembers_eq_flatMap, List.filter_flatMap]
  rfl

theorem newline_not_mem_compact {value : Json} (h : value.isContainer = false) :
    '\n' ∉ value.compact := by
  cases value with
  | array | object => cases h
  | null => decide
  | bool value => cases value <;> decide
  | number n => exact fun hn => absurd (n.isMark_text _ hn) (by decide)
  | text value => exact (Content.spells_quote value).newline_not_mem

theorem newline_not_mem_inline {items : List Json} (flat : items.any isContainer = false) :
    '\n' ∉ [',', ' '].intercalate (items.map compact) := by
  have separator : ∀ c ∈ [',', ' '], c ≠ '\n' := by simp
  have scalar : ∀ item ∈ items, item.isContainer = false := by simpa using flat
  have parts := forall_mem_intercalate separator (List.forall_mem_map.mpr
    fun item hi c hc same => newline_not_mem_compact (scalar item hi) (same ▸ hc))
  exact fun hn => parts _ hn rfl

/-- Whatever the indent, the containers that are printed on several lines are the objects that are
not empty and the lists that hold a container. -/
theorem newline_mem_format_iff (step indent : Nat) (value : Json) :
    '\n' ∈ value.format step indent ↔ value.isSpread := by
  have block {bracket : Bracket} {parts : List Text} :
      '\n' ∈ block bracket indent step parts := by simp [block]
  cases value with
  | null | bool | number | text =>
    exact iff_of_false (newline_not_mem_compact rfl) (by simp [isSpread])
  | array items =>
    rw [format, isSpread]
    split
    · next tall => exact iff_of_true block tall
    · next flat =>
      have inside := newline_not_mem_inline (Bool.eq_false_iff.mpr flat)
      exact iff_of_false (by simpa using inside) flat
  | object members =>
    rw [format, isSpread]
    split
    · next none => simp [none]
    · next some => exact iff_of_true block (by simpa using some)

end Json

end FeatureText
