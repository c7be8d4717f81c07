import FeatureText.Proofs.View.Visible

/-! Up and down go from row to row. Between a line that is shown and the line where the cursor goes
nothing is shown, so that the rows of both stand side by side. -/
namespace FeatureText

namespace Outline

variable {o : Outline} {line next : Nat}

/-- Both lines are shown, and no line between them is. -/
def Follows (o : Outline) (line next : Nat) : Prop :=
  line < next ∧ o.Shows line ∧ o.Shows next ∧ ∀ other, line < other → other < next → ¬o.Shows other

/-- The line below a line, or the last line of the node that hides it. -/
def lineBelow (o : Outline) (line : Nat) : Nat :=
  ((o.hidingNode? (line + 1)).map (·.stop.line)).getD (line + 1)

def lineAbove (o : Outline) (line : Nat) : Nat :=
  ((o.hidingNode? (line - 1)).map (·.start.line)).getD (line - 1)

theorem Nests.follows_lineBelow (h : o.Nests) (shown : o.Shows line) :
    o.Follows line (o.lineBelow line) := by
  rw [lineBelow]
  cases found : o.hidingNode? (line + 1) with
  | none =>
    refine ⟨Nat.lt_succ_self line, shown, hidingNode?_eq_none_iff.mp found, fun other => ?_⟩
    simp only [Option.map_none, Option.getD_none]
    omega
  | some n =>
    have inside := hides_of_hidingNode? found
    refine ⟨Nat.lt_of_succ_lt inside.2, shown, (h.shows_of_hidingNode? found).2, ?_⟩
    intro other below above shows
    apply shows n (List.mem_of_find?_eq_some found)
    simp only [Option.map_some, Option.getD_some] at above
    exact hidesLine_iff.mpr (by omega)

theorem Nests.follows_lineAbove (h : o.Nests) (shown : o.Shows line) (inner : 0 < line) :
    o.Follows (o.lineAbove line) line := by
  rw [lineAbove]
  cases found : o.hidingNode? (line - 1) with
  | none =>
    refine ⟨Nat.sub_one_lt_of_lt inner, hidingNode?_eq_none_iff.mp found, shown, fun other => ?_⟩
    simp only [Option.map_none, Option.getD_none]
    omega
  | some n =>
    have inside := hides_of_hidingNode? found
    refine ⟨Nat.lt_of_lt_of_le inside.1 (Nat.sub_le _ _), (h.shows_of_hidingNode? found).1, shown,
      ?_⟩
    intro other below above shows
    apply shows n (List.mem_of_find?_eq_some found)
    simp only [Option.map_some, Option.getD_some] at below
    exact hidesLine_iff.mpr (by omega)

end Outline

namespace Motion

variable {lines : List Line} {o : Outline} {p : Position}

theorem down_of_lt (inner : p.line < lastLine lines) :
    down lines o p =
      ⟨o.lineBelow p.line, min p.column (lengthAt lines (o.lineBelow p.line))⟩ :=
  if_neg (Nat.not_le_of_lt inner)

theorem up_of_pos (inner : 0 < p.line) :
    up lines o p = ⟨o.lineAbove p.line, min p.column (lengthAt lines (o.lineAbove p.line))⟩ :=
  if_neg (Nat.ne_of_gt inner)

end Motion

namespace View

section Ordered

variable {rows : List Nat} (ordered : rows.Pairwise (· < ·)) {i j line next : Nat}

include ordered

theorem lt_iff_of_getElem? (hi : rows[i]? = some line) (hj : rows[j]? = some next) :
    i < j ↔ line < next := by
  obtain ⟨insideI, rfl⟩ := List.getElem?_eq_some_iff.mp hi
  obtain ⟨insideJ, rfl⟩ := List.getElem?_eq_some_iff.mp hj
  have rising := List.pairwise_iff_getElem.mp ordered
  rcases Nat.lt_trichotomy i j with before | rfl | behind
  · simp [before, rising i j insideI insideJ before]
  · simp
  · have := rising j i insideJ insideI behind
    omega

theorem eq_succ_of_nothing_between (hi : rows[i]? = some line) (hj : rows[j]? = some next)
    (later : line < next) (nothing : ∀ other ∈ rows, line < other → next ≤ other) : j = i + 1 := by
  have before := (lt_iff_of_getElem? ordered hi hj).mpr later
  have inside := (List.getElem?_eq_some_iff.mp hj).1
  have succ := List.getElem?_eq_getElem (Nat.lt_of_le_of_lt before inside)
  have above := (lt_iff_of_getElem? ordered hi succ).mp (Nat.lt_succ_self i)
  have below := nothing _ (List.getElem_mem _) above
  have := (lt_iff_of_getElem? ordered succ hj).not.mpr (Nat.not_lt_of_le below)
  omega

end Ordered

variable {b : Buffer} {o : Outline} {ranges : List FeatureRange} {hidden : HiddenSet}
  {line next row : Nat}

def rows (b : Buffer) (o : Outline) (ranges : List FeatureRange) (hidden : HiddenSet) : List Nat :=
  (visibleLines b.lines (lineMetas b.lines o ranges hidden)).map VisibleLine.index

theorem mem_rows_iff : line ∈ rows b o ranges hidden ↔ line < b.lineCount ∧ o.Shows line :=
  mem_map_index_iff

theorem pairwise_rows : (rows b o ranges hidden).Pairwise (· < ·) :=
  List.pairwise_map.mpr inOrder_visibleLines

theorem eq_succ_of_follows (follows : o.Follows line next) {i j : Nat}
    (hi : (rows b o ranges hidden)[i]? = some line)
    (hj : (rows b o ranges hidden)[j]? = some next) : j = i + 1 := by
  refine eq_succ_of_nothing_between pairwise_rows hi hj follows.1 fun other there later => ?_
  apply Nat.le_of_not_lt
  intro earlier
  exact follows.2.2.2 other later earlier (mem_rows_iff.mp there).2

theorem row_below (nests : o.Nests) (fits : o.Fits b)
    (here : (rows b o ranges hidden)[row]? = some line) (inner : line < b.lineCount - 1) :
    (rows b o ranges hidden)[row + 1]? = some (o.lineBelow line) := by
  have follows := nests.follows_lineBelow (mem_rows_iff.mp (List.mem_of_getElem? here)).2
  have inside : o.lineBelow line < b.lineCount := by
    have down := (Motion.has_down fits ⟨line, 0⟩).1
    rwa [Motion.down_of_lt inner] at down
  have among : o.lineBelow line ∈ rows b o ranges hidden :=
    mem_rows_iff.mpr ⟨inside, follows.2.2.1⟩
  obtain ⟨below, there⟩ := List.getElem?_of_mem among
  rwa [← eq_succ_of_follows follows here there]

theorem row_above (nests : o.Nests) (here : (rows b o ranges hidden)[row]? = some line)
    (inner : 0 < line) :
    0 < row ∧ (rows b o ranges hidden)[row - 1]? = some (o.lineAbove line) := by
  obtain ⟨inside, shown⟩ := mem_rows_iff.mp (List.mem_of_getElem? here)
  have follows := nests.follows_lineAbove shown inner
  have among : o.lineAbove line ∈ rows b o ranges hidden :=
    mem_rows_iff.mpr ⟨Nat.lt_trans follows.1 inside, follows.2.1⟩
  obtain ⟨above, there⟩ := List.getElem?_of_mem among
  rw [eq_succ_of_follows follows there here]
  exact ⟨Nat.succ_pos above, there⟩

/-- Up and down lead to the row above and below, to the same column or to the end of a shorter line,
and from the outer rows to the ends of the document. -/
theorem vertical_motions_step_rows (b : Buffer) {before o : Outline}
    (folded : (before.rebuild b.lines).1.Refolds o) (ranges : List FeatureRange)
    (hidden : HiddenSet) {p : Position} {row : Nat}
    (here : (rows b o ranges hidden)[row]? = some p.line) :
    (row + 1 < (rows b o ranges hidden).length →
      ∃ line, (rows b o ranges hidden)[row + 1]? = some line ∧
        Motion.down b.lines o p = ⟨line, min p.column (b.lineLength line)⟩) ∧
    (row + 1 = (rows b o ranges hidden).length →
      Motion.down b.lines o p = Motion.documentEnd b.lines) ∧
    (0 < row →
      ∃ line, (rows b o ranges hidden)[row - 1]? = some line ∧
        Motion.up b.lines o p = ⟨line, min p.column (b.lineLength line)⟩) ∧
    (row = 0 → Motion.up b.lines o p = Motion.documentStart) := by
  have nests : o.Nests := (before.nests_rebuild b.lines).of_refolds folded
  have fits : o.Fits b := fun n hn => before.fits_rebuild b n (folded.nodes ▸ hn)
  refine ⟨fun more => ?below, fun last => ?bottom, fun further => ?above, fun first => ?top⟩
  case below =>
    have next := List.getElem?_eq_getElem more
    have later := (lt_iff_of_getElem? pairwise_rows here next).mp (Nat.lt_succ_self row)
    have inside := (mem_rows_iff.mp (List.getElem_mem more)).1
    have inner : p.line < b.lineCount - 1 := by omega
    exact ⟨o.lineBelow p.line, row_below nests fits here inner, Motion.down_of_lt inner⟩
  case bottom =>
    refine if_pos (Nat.le_of_not_lt fun inner => ?_)
    have next := row_below nests fits here inner
    exact Nat.ne_of_lt (List.getElem?_eq_some_iff.mp next).1 last
  case above =>
    have inside := (List.getElem?_eq_some_iff.mp here).1
    have last := List.getElem?_eq_getElem (Nat.lt_of_le_of_lt (Nat.sub_le row 1) inside)
    have lower := (lt_iff_of_getElem? pairwise_rows last here).mp (Nat.sub_one_lt_of_lt further)
    have inner := Nat.zero_lt_of_lt lower
    exact ⟨o.lineAbove p.line, (row_above nests here inner).2, Motion.up_of_pos inner⟩
  case top =>
    refine if_pos (Nat.eq_zero_of_not_pos fun inner => ?_)
    exact Nat.ne_of_gt (row_above nests here inner).1 first

def adjoiningLists : Buffer :=
  Buffer.ofLines ["[".toList, "1".toList, "],[".toList, "2".toList, "]".toList]

theorem vertical_motions_step_rows_adjoiningLists :
    let found := (Outline.empty.rebuild adjoiningLists.lines).1
    let o := { found with collapsed := [0, 1] }
    found.Refolds o ∧ rows adjoiningLists o [] .empty = [0, 2, 4] ∧
      Motion.down adjoiningLists.lines o ⟨2, 3⟩ = ⟨4, 1⟩ ∧
      Motion.up adjoiningLists.lines o ⟨2, 3⟩ = ⟨0, 1⟩ := by
  intro found o
  have folded : found.Refolds o := ⟨[0, 1], rfl⟩
  have shown : rows adjoiningLists o [] .empty = [0, 2, 4] := by
    rw [rows, map_index_visibleLines]
    decide
  have here : (rows adjoiningLists o [] .empty)[1]? = some 2 := by rw [shown]; rfl
  obtain ⟨down, -, up, -⟩ :=
    vertical_motions_step_rows adjoiningLists folded [] .empty (p := ⟨2, 3⟩) here
  obtain ⟨below, next, downward⟩ := down (by rw [shown]; decide)
  obtain ⟨above, last, upward⟩ := up Nat.one_pos
  rw [shown] at next last
  cases next
  cases last
  exact ⟨folded, shown, downward, upward⟩

end View

end FeatureText
