import FeatureText.Proofs.Bracket.Column
import FeatureText.Proofs.Bracket.Word
import Mathlib.Data.List.Nodup

/-! Brackets that belong together. A stack pairs each bracket that closes with the last one that is
open, and what stands between the two is a word. -/
namespace FeatureText

theorem Token.map_fst_bracketAt? (placed : Nat × Token) :
    (bracketAt? placed).map Prod.fst = placedSide? placed := by
  obtain ⟨line, token⟩ := placed
  cases token <;> rfl

namespace Bracket

structure Pair where
  bracket : Bracket
  start : Position
  stop : Position
deriving DecidableEq, Repr

/-- The pairs that brackets make with each other and with those on a stack, in the order in which
they close. There are none if one closes another kind or nothing, or if one is left open. -/
def pairUp? : List (Bracket × Position) → List (Side × Position) → Option (List Pair)
  | [], [] => some []
  | _ :: _, [] => none
  | stack, (.opening bracket, p) :: rest => pairUp? ((bracket, p) :: stack) rest
  | [], (.closing _, _) :: _ => none
  | (top, p) :: stack, (.closing bracket, q) :: rest =>
    if top = bracket then (pairUp? stack rest).map (⟨top, p, q⟩ :: ·) else none

def pairs (lines : List Line) : List Pair := (pairUp? [] (Token.brackets lines)).getD []

theorem map_fst_brackets (lines : List Line) :
    (Token.brackets lines).map Prod.fst = sides lines := by
  rw [Token.brackets, List.map_filterMap, ← filterMap_placed]
  exact congrArg (List.filterMap · _) (funext Token.map_fst_bracketAt?)

theorem isSome_pairUp?_iff (stack : List (Bracket × Position)) (marks : List (Side × Position)) :
    (pairUp? stack marks).isSome ↔ ClosesAll (stack.map Prod.fst) (marks.map Prod.fst) := by
  induction marks generalizing stack with
  | nil =>
    rw [List.map_nil, closesAll_nil_iff, List.map_eq_nil_iff]
    cases stack <;> simp [pairUp?]
  | cons mark marks ih =>
    obtain ⟨side, p⟩ := mark
    cases side with
    | opening bracket =>
      rw [pairUp?, ih, List.map_cons, List.map_cons, ← closesAll_opening_iff]
    | closing bracket =>
      cases stack with
      | nil => exact iff_of_false Bool.false_ne_true not_closesAll_closing
      | cons top stack =>
        rw [List.map_cons, List.map_cons, closesAll_closing_iff, ← ih, pairUp?]
        split
        · next same => simp [same]
        · next other => simp [other]

theorem exists_pairUp?_append {word : List (Side × Position)} (h : Word (word.map Prod.fst)) :
    ∃ own, ∀ stack rest, pairUp? stack (word ++ rest) = (pairUp? stack rest).map (own ++ ·) := by
  have nested : Nested (fun mark : Side × Position => some mark.1) word := by
    apply Word.nested
    rwa [List.filterMap_eq_map']
  clear h
  -- The stack stays general, as one more bracket is open around what stands inside.
  induction nested with
  | nil => exact ⟨[], fun stack rest => by simp⟩
  | other h => cases h
  | @nest a z inner rest bracket ha hz _ _ ihInner ihRest =>
    obtain ⟨side, p⟩ := a
    obtain ⟨other, q⟩ := z
    cases ha
    cases hz
    obtain ⟨inside, eq⟩ := ihInner
    obtain ⟨behind, eq'⟩ := ihRest
    refine ⟨inside ++ ⟨bracket, p, q⟩ :: behind, fun stack more => ?_⟩
    rw [List.cons_append, List.append_assoc, List.cons_append, pairUp?, eq, pairUp?, if_pos rfl,
      eq', Option.map_map, Option.map_map]
    congr 1
    funext pairs
    simp

theorem exists_pairUp?_of_append {stack : List (Bracket × Position)}
    {front rest : List (Side × Position)} {all : List Pair}
    (h : pairUp? stack (front ++ rest) = some all) :
    ∃ open_ later, pairUp? open_ rest = some later ∧ later <:+ all := by
  induction front generalizing stack all with
  | nil => exact ⟨stack, all, h, List.suffix_rfl⟩
  | cons mark front ih =>
    obtain ⟨side, p⟩ := mark
    cases side with
    | opening bracket =>
      rw [List.cons_append, pairUp?] at h
      exact ih h
    | closing bracket =>
      cases stack with
      | nil => cases h
      | cons top stack =>
        rw [List.cons_append, pairUp?] at h
        split at h
        · obtain ⟨more, eq, rfl⟩ := Option.map_eq_some_iff.mp h
          obtain ⟨open_, later, found, suffix⟩ := ih eq
          exact ⟨open_, later, found, suffix.trans (List.suffix_cons _ more)⟩
        · cases h

def openingPlace? : Side × Position → Option Position
  | (.opening _, p) => some p
  | (.closing _, _) => none

theorem eq_of_openingPlace? {mark : Side × Position} {p : Position}
    (h : openingPlace? mark = some p) : p = mark.2 := by
  obtain ⟨side, place⟩ := mark
  cases side <;> cases h
  rfl

theorem perm_of_pairUp? {stack : List (Bracket × Position)} {marks : List (Side × Position)}
    {all : List Pair} (h : pairUp? stack marks = some all) :
    (all.map Pair.start).Perm (stack.map Prod.snd ++ marks.filterMap openingPlace?) := by
  induction marks generalizing stack all with
  | nil =>
    cases stack with
    | nil =>
      cases h
      exact .nil
    | cons => cases h
  | cons mark marks ih =>
    obtain ⟨side, p⟩ := mark
    cases side with
    | opening bracket =>
      rw [pairUp?] at h
      exact (ih h).trans List.perm_middle.symm
    | closing bracket =>
      cases stack with
      | nil => cases h
      | cons top stack =>
        rw [pairUp?] at h
        split at h
        · obtain ⟨more, eq, rfl⟩ := Option.map_eq_some_iff.mp h
          exact (ih eq).cons top.2
        · cases h

theorem nodup_start_pairs (lines : List Line) : ((pairs lines).map Pair.start).Nodup := by
  rw [pairs]
  cases eq : pairUp? [] (Token.brackets lines) with
  | none => exact List.nodup_nil
  | some all =>
    have places : ((Token.brackets lines).filterMap openingPlace?).Nodup := by
      refine (Token.pairwise_brackets lines).filterMap openingPlace? ?_
      intro a b before p hp q hq same
      rw [eq_of_openingPlace? hp, eq_of_openingPlace? hq] at same
      exact Position.lt_irrefl _ (same ▸ before)
    exact (perm_of_pairUp? eq).nodup_iff.mpr places

/-- One pair opens at the first place; it is of the kind and closes at the second. -/
def IsPartner (lines : List Line) (bracket : Bracket) (p q : Position) : Prop :=
  ∀ pair, pair ∈ pairs lines ∧ pair.start = p ↔ pair = ⟨bracket, p, q⟩

theorem isPartner_of_mem {lines : List Line} {bracket : Bracket} {p q : Position}
    (h : ⟨bracket, p, q⟩ ∈ pairs lines) : IsPartner lines bracket p q := by
  intro pair
  constructor
  · rintro ⟨hp, same⟩
    exact List.inj_on_of_nodup_map (nodup_start_pairs lines) hp h same
  · rintro rfl
    exact ⟨h, rfl⟩

/-- While brackets match, each that opens is in a pair, and a word stands between the two. -/
theorem exists_partner {lines : List Line} (balanced : isBalanced lines) {bracket : Bracket}
    {p : Position} {front rest : List (Side × Position)}
    (h : Token.brackets lines = front ++ (.opening bracket, p) :: rest) :
    ∃ inner q after, rest = inner ++ (.closing bracket, q) :: after ∧
      Word (inner.map Prod.fst) ∧ IsPartner lines bracket p q := by
  have found : (pairUp? [] (Token.brackets lines)).isSome := by
    rw [isSome_pairUp?_iff, map_fst_brackets]
    exact (isBalanced_iff_word lines).mp balanced
  obtain ⟨all, eq⟩ := Option.isSome_iff_exists.mp found
  obtain ⟨stack, later, found, suffix⟩ := exists_pairUp?_of_append (h ▸ eq)
  rw [pairUp?] at found
  have closes := (isSome_pairUp?_iff _ rest).mp (Option.isSome_of_eq_some found)
  obtain ⟨_, _, whole, word, -⟩ := closes
  obtain ⟨inner, back, rfl, rfl, closing⟩ := List.map_eq_append_iff.mp whole
  obtain ⟨⟨side, q⟩, after, rfl, rfl, rfl⟩ := List.map_eq_cons_iff.mp closing
  obtain ⟨own, passed⟩ := exists_pairUp?_append word
  rw [passed, pairUp?, if_pos rfl] at found
  refine ⟨inner, q, after, rfl, word, isPartner_of_mem ?_⟩
  rw [pairs, eq]
  apply suffix.subset
  obtain ⟨_, pair, rfl⟩ := Option.map_eq_some_iff.mp found
  obtain ⟨_, -, rfl⟩ := Option.map_eq_some_iff.mp pair
  simp

end Bracket

end FeatureText
