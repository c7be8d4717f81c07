import FeatureText.Proofs.Motion.Shown
import FeatureText.View.Line

/-! What is shown of the lines, against the outline. The lines are those that no collapsed node
hides, in their order; so a row is found by halving the rows, and a hidden line is found at the row
of the outermost node that hides it. -/
namespace FeatureText

namespace View

variable {lines : List Line} {o : Outline} {ranges : List FeatureRange} {hidden : HiddenSet}

def mark (flags : List Bool) (n : Node) : List Bool :=
  (List.range' (n.start.line + 1) (n.stop.line - (n.start.line + 1))).foldl
    (fun flags line => flags.set line true) flags

def marked (o : Outline) (count : Nat) : List Bool :=
  o.collapsedNodes.foldl mark (List.replicate count false)

theorem getElem?_foldl_set (places : List Nat) (flags : List Bool) (i : Nat) :
    (places.foldl (fun flags line => flags.set line true) flags)[i]? =
      flags[i]?.map (· || places.contains i) := by
  induction places generalizing flags with
  | nil => simp
  | cons place places ih =>
    rw [List.foldl_cons, ih, List.getElem?_set]
    by_cases here : place = i
    · subst here
      cases there : flags[place]? with
      | none => simp [List.getElem?_eq_none_iff.mp there]
      | some flag => simp [(List.getElem?_eq_some_iff.mp there).1]
    · simp [here, Ne.symm here]

theorem getElem?_mark (flags : List Bool) (n : Node) (i : Nat) :
    (mark flags n)[i]? = flags[i]?.map (· || n.hidesLine i) := by
  have inside : (List.range' (n.start.line + 1) (n.stop.line - (n.start.line + 1))).contains i =
      n.hidesLine i := by
    rw [Bool.eq_iff_iff, List.contains_iff_mem, List.mem_range'_1, Outline.hidesLine_iff]
    omega
  rw [mark, getElem?_foldl_set, inside]

theorem getElem?_foldl_mark (nodes : List Node) (flags : List Bool) (i : Nat) :
    (nodes.foldl mark flags)[i]? = flags[i]?.map (· || nodes.any (·.hidesLine i)) := by
  induction nodes generalizing flags with
  | nil => simp
  | cons n nodes ih =>
    rw [List.foldl_cons, ih, getElem?_mark, Option.map_map]
    congr 1
    funext flag
    simp [Bool.or_assoc]

theorem getElem?_lineMetas (i : Nat) :
    (lineMetas lines o ranges hidden)[i]? = lines[i]?.map (lineMeta o ranges hidden i) := by
  rw [lineMetas, List.getElem?_map, List.getElem?_zipIdx, Option.map_map, Nat.zero_add]
  rfl

theorem map_isHidden_lineMetas :
    (lineMetas lines o ranges hidden).map LineMeta.isHidden = marked o lines.length := by
  apply List.ext_getElem?
  intro i
  rw [List.getElem?_map, getElem?_lineMetas, marked, getElem?_foldl_mark, List.getElem?_replicate,
    Option.map_map]
  split
  · next inside =>
    rw [List.getElem?_eq_getElem inside]
    rfl
  · next outside =>
    rw [List.getElem?_eq_none (Nat.not_lt.mp outside)]
    rfl

theorem visibleLines_eq :
    visibleLines lines (lineMetas lines o ranges hidden) =
      (lines.zipIdx.filter fun (_, i) => !o.isLineHidden i).map fun (line, i) =>
        ⟨i, line, lineMeta o ranges hidden i line⟩ := by
  have entries : (lines.zip (lineMetas lines o ranges hidden)).zipIdx =
      lines.zipIdx.map fun (line, i) => ((line, lineMeta o ranges hidden i line), i) := by
    apply List.ext_getElem?
    intro i
    simp only [List.zip, List.getElem?_zipIdx, List.getElem?_zipWith, List.getElem?_map,
      getElem?_lineMetas]
    cases lines[i]? <;> simp
  rw [visibleLines, entries, List.filter_map, List.map_map]
  rfl

theorem map_index_visibleLines :
    (visibleLines lines (lineMetas lines o ranges hidden)).map VisibleLine.index =
      (List.range lines.length).filter fun i => !o.isLineHidden i := by
  have numbers : lines.zipIdx.map Prod.snd = List.range lines.length := by
    rw [List.zipIdx_map_snd, List.range_eq_range']
  rw [visibleLines_eq, List.map_map, ← numbers, List.filter_map]
  rfl

/-- The lines are in the order of the buffer. -/
def InOrder (visible : List VisibleLine) : Prop := visible.Pairwise fun v w => v.index < w.index

theorem inOrder_visibleLines : InOrder (visibleLines lines (lineMetas lines o ranges hidden)) := by
  have sorted := List.pairwise_lt_range (n := lines.length)
  exact List.pairwise_map.mp (map_index_visibleLines ▸ sorted.filter _)

/-- Looks for the row of a line between two rows, in the middle first. The error is the row in front
of which the line would go. -/
def search (visible : List VisibleLine) (line low high : Nat) : Except Nat Nat :=
  if low < high then
    let middle := (low + high) / 2
    match visible[middle]? with
    | some v =>
      if v.index = line then .ok middle
      else if v.index < line then search visible line (middle + 1) high
      else search visible line low middle
    | none => .error low
  else .error low
termination_by high - low

def rowAbove? : Nat → Option Nat
  | 0 => none
  | row + 1 => some row

def searchRow? (visible : List VisibleLine) (line : Nat) : Option Nat :=
  match search visible line 0 visible.length with
  | .ok row => some row
  | .error row => rowAbove? row

section Rows

variable {visible : List VisibleLine} {v w : VisibleLine} {line row low high : Nat}

theorem length_takeWhile_eq (above : ∀ i < row, ∃ v, visible[i]? = some v ∧ v.index ≤ line)
    (next : ∀ v, visible[row]? = some v → line < v.index) :
    (visible.takeWhile (·.index ≤ line)).length = row := by
  induction visible generalizing row with
  | nil =>
    cases row with
    | zero => rfl
    | succ row =>
      obtain ⟨v, there, -⟩ := above row (Nat.lt_succ_self row)
      cases there
  | cons first rest ih =>
    cases row with
    | zero =>
      have further : ¬first.index ≤ line := Nat.not_le.mpr (next first rfl)
      simp [further]
    | succ row =>
      obtain ⟨v, there, le⟩ := above 0 (Nat.succ_pos row)
      cases there
      rw [List.takeWhile_cons, if_pos (decide_eq_true le), List.length_cons]
      exact congrArg (· + 1) (ih (fun i hi => above (i + 1) (Nat.succ_lt_succ hi)) next)

theorem rowOf?_eq (above : ∀ i < row, ∃ v, visible[i]? = some v ∧ v.index ≤ line)
    (next : ∀ v, visible[row]? = some v → line < v.index) :
    rowOf? visible line = rowAbove? row := by
  rw [rowOf?, length_takeWhile_eq above next]
  cases row <;> rfl

theorem InOrder.lt (h : InOrder visible) {i j : Nat} (before : i < j) (hv : visible[i]? = some v)
    (hw : visible[j]? = some w) : v.index < w.index := by
  obtain ⟨hi, rfl⟩ := List.getElem?_eq_some_iff.mp hv
  obtain ⟨hj, rfl⟩ := List.getElem?_eq_some_iff.mp hw
  exact List.pairwise_iff_getElem.mp h i j hi hj before

theorem InOrder.rowOf?_index (h : InOrder visible) (there : visible[row]? = some v) :
    rowOf? visible v.index = some row := by
  have next (w : VisibleLine) : visible[row + 1]? = some w → v.index < w.index :=
    h.lt (Nat.lt_succ_self row) there
  refine rowOf?_eq (fun i hi => ?_) next
  rcases Nat.lt_or_eq_of_le (Nat.le_of_lt_succ hi) with before | rfl
  · have inside := (List.getElem?_eq_some_iff.mp there).1
    refine ⟨visible[i], List.getElem?_eq_getElem (Nat.lt_trans before inside), ?_⟩
    exact Nat.le_of_lt (h.lt before (List.getElem?_eq_getElem _) there)
  · exact ⟨v, there, Nat.le_refl _⟩

theorem rowOf?_congr {other : Nat} (same : ∀ v ∈ visible, v.index ≤ line ↔ v.index ≤ other) :
    rowOf? visible line = rowOf? visible other := by
  have rows : visible.takeWhile (·.index ≤ line) = visible.takeWhile (·.index ≤ other) := by
    induction visible with
    | nil => rfl
    | cons v visible ih =>
      rw [List.forall_mem_cons] at same
      simp only [List.takeWhile_cons, same.1, ih same.2]
  rw [rowOf?, rowOf?, rows]

/-- What is left to be searched always begins behind lines that come before, and ends in front of
lines that come after. -/
theorem InOrder.rowOf?_of_search (h : InOrder visible) (ordered : low ≤ high)
    (bound : high ≤ visible.length) (before : ∀ i < low, ∀ v, visible[i]? = some v → v.index < line)
    (behind : ∀ i ≥ high, ∀ v, visible[i]? = some v → line < v.index) :
    rowOf? visible line = match search visible line low high with
      | .ok row => some row
      | .error row => rowAbove? row := by
  fun_induction search visible line low high with
  | case1 low high left middle v there found =>
    rw [← found]
    exact h.rowOf?_index there
  | case2 low high left middle v there other less ih =>
    refine ih (by omega) bound (fun i hi w hw => ?_) behind
    rcases Nat.lt_or_eq_of_le (Nat.le_of_lt_succ hi) with lower | rfl
    · exact Nat.lt_trans (h.lt lower hw there) less
    · cases there.symm.trans hw
      exact less
  | case3 low high left middle v there other more ih =>
    refine ih (by omega) (by omega) before fun i hi w hw => ?_
    have greater : line < v.index := by omega
    rcases Nat.lt_or_eq_of_le hi with higher | rfl
    · exact Nat.lt_trans greater (h.lt higher there hw)
    · cases there.symm.trans hw
      exact greater
  | case4 low high left middle none =>
    have outside := List.getElem?_eq_none_iff.mp none
    omega
  | case5 low high done =>
    have same : low = high := by omega
    subst same
    refine rowOf?_eq (fun i hi => ?_) (behind low (Nat.le_refl _))
    have there := List.getElem?_eq_getElem (Nat.lt_of_lt_of_le hi bound)
    exact ⟨_, there, Nat.le_of_lt (before i hi _ there)⟩

theorem InOrder.searchRow?_eq (h : InOrder visible) (line : Nat) :
    searchRow? visible line = rowOf? visible line := by
  have nothing : ∀ i ≥ visible.length, ∀ v, visible[i]? = some v → line < v.index := by
    intro i hi v hv
    rw [List.getElem?_eq_none hi] at hv
    cases hv
  rw [h.rowOf?_of_search (Nat.zero_le _) (Nat.le_refl _) nofun nothing]
  rfl

end Rows

end View

namespace Outline.Nests

variable {o : Outline} {m n : Node} {line : Nat}

theorem encloses_of_hidingNode? (h : o.Nests) (found : o.hidingNode? line = some n)
    (hm : m ∈ o.collapsedNodes) (hides : m.hidesLine line) (other : m ≠ n) :
    n.span.Encloses m.span := by
  have hn := List.mem_of_find?_eq_some found
  have there := hides_of_hidingNode? found
  have there' := hidesLine_iff.mp hides
  rcases nested_or_apart_of_leads h.led (List.mem_of_mem_filter hn) (List.mem_of_mem_filter hm)
    (Ne.symm other) with around | within | before | behind
  · exact around
  · exact absurd hides (h.not_choose_of_encloses found hm within)
  · rw [Position.lt_def] at before
    omega
  · rw [Position.lt_def] at behind
    omega

end Outline.Nests

namespace View

variable {lines : List Line} {o : Outline} {ranges : List FeatureRange} {hidden : HiddenSet}

theorem mem_map_index_iff {line : Nat} :
    line ∈ (visibleLines lines (lineMetas lines o ranges hidden)).map VisibleLine.index ↔
      line < lines.length ∧ o.Shows line := by
  rw [map_index_visibleLines, List.mem_filter, List.mem_range, Outline.shows_iff]
  simp

theorem exists_row_of_shows {line : Nat} (inside : line < lines.length) (shown : o.Shows line)
    (ranges : List FeatureRange) (hidden : HiddenSet) :
    ∃ row, rowOf? (visibleLines lines (lineMetas lines o ranges hidden)) line = some row ∧
      ((visibleLines lines (lineMetas lines o ranges hidden))[row]?.map VisibleLine.index) =
        some line := by
  have among : line ∈
      (visibleLines lines (lineMetas lines o ranges hidden)).map VisibleLine.index :=
    mem_map_index_iff.mpr ⟨inside, shown⟩
  obtain ⟨row, there⟩ := List.getElem?_of_mem among
  rw [List.getElem?_map] at there
  obtain ⟨v, hv, rfl⟩ := Option.map_eq_some_iff.mp there
  exact ⟨row, inOrder_visibleLines.rowOf?_index hv, there⟩

theorem shows_of_mem_visibleLines {v : VisibleLine}
    (hv : v ∈ visibleLines lines (lineMetas lines o ranges hidden)) : o.Shows v.index :=
  (mem_map_index_iff.mp (List.mem_map_of_mem hv)).2

theorem rowOf?_of_hidingNode? {line : Nat} {n : Node} (found : o.hidingNode? line = some n) :
    rowOf? (visibleLines lines (lineMetas lines o ranges hidden)) line =
      rowOf? (visibleLines lines (lineMetas lines o ranges hidden)) n.start.line := by
  have inside := Outline.hides_of_hidingNode? found
  refine rowOf?_congr fun v hv => ?_
  have shown := shows_of_mem_visibleLines hv n (List.mem_of_find?_eq_some found)
  rw [Outline.hidesLine_iff] at shown
  omega

theorem content_of_mem_visibleLines {v : VisibleLine}
    (hv : v ∈ visibleLines lines (lineMetas lines o ranges hidden)) :
    lines[v.index]? = some v.content ∧
      (lineMetas lines o ranges hidden)[v.index]? = some v.info := by
  rw [visibleLines_eq] at hv
  obtain ⟨⟨line, i⟩, entry, rfl⟩ := List.mem_map.mp hv
  have there : lines[i]? = some line :=
    List.mem_zipIdx_iff_getElem?.mp (List.mem_of_mem_filter entry)
  refine ⟨there, ?_⟩
  rw [getElem?_lineMetas, there]
  rfl

/-- The flags that are set node by node say which lines a collapsed node hides, the others are
shown, and a hidden line is found where the outermost node that hides it begins. -/
theorem projection_agrees_with_outline (b : Buffer) {before o : Outline}
    (folded : (before.rebuild b.lines).1.Refolds o) (ranges : List FeatureRange)
    (hidden : HiddenSet) :
    let metas := lineMetas b.lines o ranges hidden
    let visible := visibleLines b.lines metas
    let rows := visible.map VisibleLine.index
    (metas.map LineMeta.isHidden = marked o b.lineCount ∧
      ∀ line info, metas[line]? = some info →
        (info.isHidden ↔ ∃ n ∈ o.collapsedNodes, n.start.line < line ∧ line < n.stop.line)) ∧
    (rows.Pairwise (· < ·) ∧ (∀ line, line ∈ rows ↔ line < b.lineCount ∧ o.Shows line) ∧
      (∀ v ∈ visible, b.line? v.index = some v.content ∧ metas[v.index]? = some v.info) ∧
      0 ∈ rows ∧ b.lineCount - 1 ∈ rows) ∧
    (∀ line, o.hidingNode? line = none ↔ o.Shows line) ∧
    (∀ line n, o.hidingNode? line = some n →
      n ∈ o.collapsedNodes ∧ n.hidesLine line ∧
      (∀ m ∈ o.collapsedNodes, m.hidesLine line → m ≠ n → n.span.Encloses m.span) ∧
      n.start.line ∈ rows ∧ n.stop.line ∈ rows ∧
      ∃ row, rowOf? visible line = some row ∧ rows[row]? = some n.start.line) ∧
    (∀ line ∈ rows, ∃ row, rowOf? visible line = some row ∧ rows[row]? = some line) ∧
    ∀ line, searchRow? visible line = rowOf? visible line := by
  intro metas visible rows
  have nests : o.Nests := (before.nests_rebuild b.lines).of_refolds folded
  have fits : o.Fits b := fun n hn => before.fits_rebuild b n (folded.nodes ▸ hn)
  have mem (line : Nat) : line ∈ rows ↔ line < b.lineCount ∧ o.Shows line := mem_map_index_iff
  have row {line : Nat} (there : line ∈ rows) :
      ∃ row, rowOf? visible line = some row ∧ rows[row]? = some line := by
    obtain ⟨inside, shown⟩ := (mem line).mp there
    obtain ⟨row, found, index⟩ := exists_row_of_shows inside shown ranges hidden
    exact ⟨row, found, List.getElem?_map.trans index⟩
  have count := b.lineCount_pos
  refine ⟨⟨map_isHidden_lineMetas, fun line info there => ?_⟩,
    ⟨List.pairwise_map.mpr inOrder_visibleLines, mem, fun v => content_of_mem_visibleLines,
      (mem 0).mpr ⟨count, o.shows_zero⟩,
      (mem _).mpr ⟨Nat.sub_one_lt_of_lt count, Motion.shows_documentEnd fits⟩⟩,
    fun line => Outline.hidingNode?_eq_none_iff, fun line n found => ?_, fun line => row,
    inOrder_visibleLines.searchRow?_eq⟩
  · rw [getElem?_lineMetas] at there
    obtain ⟨content, -, rfl⟩ := Option.map_eq_some_iff.mp there
    simp only [lineMeta, Outline.isLineHidden, List.any_eq_true, Outline.hidesLine_iff]
  · have hn := List.mem_of_find?_eq_some found
    obtain ⟨start, stop⟩ := nests.shows_of_hidingNode? found
    obtain ⟨starts, stops⟩ := fits n (List.mem_of_mem_filter hn)
    have first := (mem n.start.line).mpr ⟨starts.1, start⟩
    refine ⟨hn, Outline.hidesLine_iff.mpr (Outline.hides_of_hidingNode? found),
      fun m hm hides other => nests.encloses_of_hidingNode? found hm hides other, first,
      (mem n.stop.line).mpr ⟨stops.1, stop⟩, ?_⟩
    obtain ⟨place, there, index⟩ := row first
    exact ⟨place, (rowOf?_of_hidingNode? found).trans there, index⟩

theorem projection_agrees_with_outline_doubleList :
    let found := (Outline.empty.rebuild Motion.doubleList.lines).1
    let o := { found with collapsed := [0, 1] }
    let metas := lineMetas Motion.doubleList.lines o [] .empty
    let visible := visibleLines Motion.doubleList.lines metas
    found.Refolds o ∧ metas.map LineMeta.isHidden = [false, true, true, true, false] ∧
      4 ∈ visible.map VisibleLine.index ∧ (o.hidingNode? 1).map Node.id = some 0 ∧
      rowOf? visible 4 = some 1 ∧ searchRow? visible 1 = some 0 := by
  intro found o metas visible
  have folded : found.Refolds o := ⟨[0, 1], rfl⟩
  obtain ⟨⟨flags, -⟩, ⟨-, -, -, -, last⟩, -, -, -, search⟩ :=
    projection_agrees_with_outline Motion.doubleList folded [] .empty
  exact ⟨folded, flags.trans (by decide), last, by decide, by decide,
    (search 1).trans (by decide)⟩

end View

end FeatureText
