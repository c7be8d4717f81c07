import FeatureText.Proofs.Bracket.Nested

/-! Where tokens stand. A token begins at its column with its own character, and the tokens of some
lines come in the order of their places. -/
namespace FeatureText

open FeatureText.Bracket

def charAt? (lines : List Line) (p : Position) : Option Char := (lines.getD p.line [])[p.column]?

def cellsFrom (first : Nat) : List Line → List (Char × Position)
  | [] => []
  | line :: rest =>
    line.zipIdx.map (fun cell => (cell.1, ⟨first, cell.2⟩)) ++ cellsFrom (first + 1) rest

theorem line_ge_of_mem_cellsFrom {first : Nat} {lines : List Line} {cell : Char × Position}
    (h : cell ∈ cellsFrom first lines) : first ≤ cell.2.line := by
  induction lines generalizing first with
  | nil => cases h
  | cons line rest ih =>
    rcases List.mem_append.mp h with here | later
    · obtain ⟨_, -, rfl⟩ := List.mem_map.mp here
      exact Nat.le_refl _
    · exact Nat.le_of_succ_le (ih later)

theorem pairwise_cellsFrom (first : Nat) (lines : List Line) :
    (cellsFrom first lines).Pairwise fun a b => a.2 < b.2 := by
  induction lines generalizing first with
  | nil => exact .nil
  | cons line rest ih =>
    refine List.pairwise_append.mpr ⟨?_, ih (first + 1), ?_⟩
    · have columns : (line.zipIdx.map Prod.snd).Pairwise (· < ·) := by
        rw [List.zipIdx_map_snd]
        exact List.pairwise_lt_range'
      rw [List.pairwise_map] at columns ⊢
      exact columns.imp fun before => .inr ⟨rfl, before⟩
    · intro a ha b hb
      obtain ⟨_, -, rfl⟩ := List.mem_map.mp ha
      exact .inl (line_ge_of_mem_cellsFrom hb)

theorem charAt?_of_mem_cellsFrom {first : Nat} {lines : List Line} {c : Char} {p : Position}
    (h : (c, p) ∈ cellsFrom first lines) : charAt? lines ⟨p.line - first, p.column⟩ = some c := by
  induction lines generalizing first with
  | nil => cases h
  | cons line rest ih =>
    rcases List.mem_append.mp h with here | later
    · obtain ⟨⟨c, column⟩, there, same⟩ := List.mem_map.mp here
      cases same
      rw [charAt?, Nat.sub_self]
      exact List.mem_zipIdx_iff_getElem?.mp there
    · have below : first + 1 ≤ p.line := line_ge_of_mem_cellsFrom later
      have next : p.line - first = p.line - (first + 1) + 1 := by omega
      rw [charAt?, next]
      exact ih later

def Bracket.Side.char : Side → Char
  | .opening bracket => bracket.opening
  | .closing bracket => bracket.closing

namespace Token

def sign? : Token → Option (Char × Nat)
  | .opening bracket column => some (bracket.opening, column)
  | .closing bracket column => some (bracket.closing, column)
  | .quoted _ column => some ('"', column)
  | .colon | .comma => none

theorem sign?_of_mark? {c : Char} {column : Nat} {token : Token}
    (h : mark? c column = some token) : token.sign? = none ∨ token.sign? = some (c, column) := by
  unfold mark? at h
  split at h
  · next bracket opens =>
    cases h
    rw [eq_opening_of_ofOpening? opens]
    exact .inr rfl
  · next bracket _ closes =>
    cases h
    rw [eq_closing_of_ofClosing? closes]
    exact .inr rfl
  · split at h
    · cases h
      exact .inl rfl
    · split at h
      · cases h
        exact .inl rfl
      · cases h

mutual

/-- What the tokenizer finds are characters of the line, in their order. -/
theorem sublist_scan_outside (line : Line) (column : Nat) :
    ((scan .outside column line).filterMap sign?).Sublist (line.zipIdx column) := by
  cases line with
  | nil => exact .slnil
  | cons c rest =>
    rw [scan, List.zipIdx_cons]
    split
    · next quote =>
      rw [quote]
      obtain ⟨tail, found, sub⟩ := exists_scan_inside rest column (column + 1) [] false
      rw [found]
      exact sub.cons_cons _
    · have later := sublist_scan_outside rest (column + 1)
      split
      · next token marked =>
        rcases sign?_of_mark? marked with none | some
        · rw [List.filterMap_cons_none none]
          exact later.cons _
        · rw [List.filterMap_cons_some some]
          exact later.cons_cons _
      · exact later.cons _

theorem exists_scan_inside (line : Line) (start column : Nat) (raw : Text) (escaped : Bool) :
    ∃ tail, (scan (.inside start raw escaped) column line).filterMap sign? = ('"', start) :: tail ∧
      tail.Sublist (line.zipIdx column) := by
  cases line with
  | nil => exact ⟨[], rfl, .slnil⟩
  | cons c rest =>
    rw [List.zipIdx_cons]
    cases escaped with
    | true =>
      obtain ⟨tail, found, sub⟩ := exists_scan_inside rest start (column + 1) (c :: raw) false
      exact ⟨tail, found, sub.cons _⟩
    | false =>
      rw [scan]
      split
      · exact ⟨_, rfl, (sublist_scan_outside rest (column + 1)).cons _⟩
      · obtain ⟨tail, found, sub⟩ :=
          exists_scan_inside rest start (column + 1) (c :: raw) (c == '\\')
        exact ⟨tail, found, sub.cons _⟩

end

def bracketAt? : Nat × Token → Option (Side × Position)
  | (line, .opening bracket column) => some (.opening bracket, ⟨line, column⟩)
  | (line, .closing bracket column) => some (.closing bracket, ⟨line, column⟩)
  | _ => none

def brackets (lines : List Line) : List (Side × Position) := (placed lines).filterMap bracketAt?

theorem sublist_brackets (line : Nat) (tokens : List Token) :
    (((tokens.map (line, ·)).filterMap bracketAt?).map fun mark => (mark.1.char, mark.2)).Sublist
      ((tokens.filterMap sign?).map fun sign => (sign.1, ⟨line, sign.2⟩)) := by
  induction tokens with
  | nil => exact .slnil
  | cons token tokens ih =>
    cases token with
    | opening | closing => exact ih.cons_cons _
    | quoted => exact ih.cons _
    | colon | comma => exact ih

theorem sublist_placedFrom (first : Nat) (lines : List Line) :
    (((placedFrom first lines).filterMap bracketAt?).map fun mark => (mark.1.char, mark.2)).Sublist
      (cellsFrom first lines) := by
  induction lines generalizing first with
  | nil => exact .slnil
  | cons line rest ih =>
    rw [placedFrom, List.filterMap_append, List.map_append]
    exact ((sublist_brackets first _).trans ((sublist_scan_outside line 0).map _)).append
      (ih (first + 1))

theorem pairwise_brackets (lines : List Line) :
    (brackets lines).Pairwise fun a b => a.2 < b.2 := by
  have ordered := (pairwise_cellsFrom 0 lines).sublist (sublist_placedFrom 0 lines)
  rwa [List.pairwise_map] at ordered

theorem charAt?_of_mem_brackets {lines : List Line} {side : Side} {p : Position}
    (h : (side, p) ∈ brackets lines) : charAt? lines p = some side.char := by
  have cell : (side.char, p) ∈ cellsFrom 0 lines :=
    (sublist_placedFrom 0 lines).subset (List.mem_map_of_mem h)
  exact charAt?_of_mem_cellsFrom cell

end Token

end FeatureText
