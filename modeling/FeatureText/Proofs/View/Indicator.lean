import FeatureText.Proofs.View.Visible

/-! Which lines tell that a node is collapsed. A line tells of the outermost node that opens on it,
since that one is the last to write there. So a collapsed node is left out if it opens behind one
that is not collapsed, though the lines inside it are hidden. -/
namespace FeatureText

namespace Outline

variable {o : Outline} {m n : Node} {line : Nat}

def OpensOutermost (o : Outline) (line : Nat) (n : Node) : Prop :=
  n ∈ o.nodes ∧ n.start.line = line ∧
    ∀ m ∈ o.nodes, m.start.line = line → m ≠ n → n.span.Encloses m.span

theorem exists_nodeAtLine? (hm : m ∈ o.nodes) (opens : m.start.line = line) :
    ∃ n, o.nodeAtLine? line = some n := by
  apply Option.isSome_iff_exists.mp
  simp only [nodeAtLine?, List.find?_isSome, beq_iff_eq]
  exact ⟨m, hm, opens⟩

namespace Nests

/-- The first of the nodes that open on a line lies around the others. -/
theorem opensOutermost_of_nodeAtLine? (h : o.Nests) (found : o.nodeAtLine? line = some n) :
    o.OpensOutermost line n := by
  have hn := List.mem_of_find?_eq_some found
  have opens : n.start.line = line := by simpa using List.find?_some found
  refine ⟨hn, opens, fun m hm beside other => ?_⟩
  rcases eq_or_rel_of_find? h.led found hm (by simpa using beside) with same | ⟨-, around | before⟩
  · exact absurd same other
  · exact around
  · -- The node ends further down, and so not before the other one opens.
    have tall := h.tall n hn
    simp only [Position.lt_def, Node.span] at before
    omega

theorem nodeAtLine?_eq_some_iff (h : o.Nests) :
    o.nodeAtLine? line = some n ↔ o.OpensOutermost line n := by
  constructor
  · exact h.opensOutermost_of_nodeAtLine?
  · rintro ⟨hn, opens, outer⟩
    obtain ⟨m, found⟩ := exists_nodeAtLine? hn opens
    obtain ⟨hm, beside, around⟩ := h.opensOutermost_of_nodeAtLine? found
    rw [found, Option.some.injEq]
    by_contra other
    have encloses := (outer m hm beside other).trans (around n hn opens (Ne.symm other))
    exact Span.not_encloses_self _ encloses

end Nests

end Outline

namespace View

variable {lines : List Line} {o : Outline} {ranges : List FeatureRange} {hidden : HiddenSet}

def indicator (o : Outline) (n : Node) : Option CollapseButton × Bool :=
  (some ⟨n.id, n.key, o.isCollapsed n.id⟩, o.isCollapsed n.id)

/-- What is written on all lines by one node after the other, the last one first. -/
def indicators (o : Outline) (count : Nat) : List (Option CollapseButton × Bool) :=
  o.nodes.reverse.foldl (fun written n => written.set n.start.line (indicator o n))
    (List.replicate count (none, false))

theorem length_foldr_set {ι α : Type} (place : ι → Nat) (value : ι → α) (items : List ι)
    (blank : List α) :
    (items.foldr (fun item written => written.set (place item) (value item)) blank).length =
      blank.length := by
  induction items with
  | nil => rfl
  | cons item items ih => rw [List.foldr_cons, List.length_set, ih]

/-- Of the items that write to one place the first one in the list is the last to do so. -/
theorem getElem?_foldr_set {ι α : Type} (place : ι → Nat) (value : ι → α) (items : List ι)
    (blank : List α) (i : Nat) :
    (items.foldr (fun item written => written.set (place item) (value item)) blank)[i]? =
      blank[i]?.map fun old => ((items.find? (place · == i)).map value).getD old := by
  induction items with
  | nil => simp
  | cons item items ih =>
    rw [List.foldr_cons]
    by_cases here : place item = i
    · subst here
      rw [List.getElem?_set, if_pos rfl, length_foldr_set]
      split
      · next inside => simp [List.getElem?_eq_getElem inside]
      · next outside => simp [List.getElem?_eq_none (Nat.not_lt.mp outside)]
    · simp [here, ih]

theorem map_indicator_lineMetas :
    (lineMetas lines o ranges hidden).map (fun info => (info.collapse, info.isCollapsed)) =
      indicators o lines.length := by
  apply List.ext_getElem?
  intro i
  rw [indicators, List.foldl_reverse, getElem?_foldr_set, List.getElem?_map, getElem?_lineMetas,
    List.getElem?_replicate]
  split
  · next inside =>
    rw [List.getElem?_eq_getElem inside]
    simp only [Option.map_some, lineMeta, collapseButton?, Outline.nodeAtLine?]
    cases o.nodes.find? (·.start.line == i) <;> rfl
  · next outside => simp [Nat.not_lt.mp outside]

theorem isCollapsed_lineMeta (i : Nat) (line : Line) :
    (lineMeta o ranges hidden i line).isCollapsed ↔
      ∃ n, o.nodeAtLine? i = some n ∧ o.isCollapsed n.id := by
  cases found : o.nodeAtLine? i <;> simp [lineMeta, collapseButton?, found]

theorem isCollapsed_iff (nests : o.Nests) {line : Nat} {info : LineMeta}
    (there : (lineMetas lines o ranges hidden)[line]? = some info) :
    info.isCollapsed ↔ ∃ n ∈ o.collapsedNodes, o.OpensOutermost line n := by
  rw [getElem?_lineMetas] at there
  obtain ⟨content, -, rfl⟩ := Option.map_eq_some_iff.mp there
  rw [isCollapsed_lineMeta]
  simp only [nests.nodeAtLine?_eq_some_iff, Outline.collapsedNodes, List.mem_filter]
  constructor
  · rintro ⟨n, outer, collapsed⟩
    exact ⟨n, ⟨outer.1, collapsed⟩, outer⟩
  · rintro ⟨n, ⟨-, collapsed⟩, outer⟩
    exact ⟨n, outer, collapsed⟩

/-- A line tells what the outermost node that opens there wrote. It tells that one of the nodes is
collapsed exactly if the outermost one then is. -/
theorem indicators_tell_of_outermost (lines : List Line) {before o : Outline}
    (folded : (before.rebuild lines).1.Refolds o) (ranges : List FeatureRange)
    (hidden : HiddenSet) :
    let metas := lineMetas lines o ranges hidden
    metas.map (fun info => (info.collapse, info.isCollapsed)) = indicators o lines.length ∧
    ∀ line info, metas[line]? = some info →
      (info.isCollapsed ↔ ∃ n ∈ o.collapsedNodes, o.OpensOutermost line n) ∧
      ((info.isCollapsed ↔ ∃ n ∈ o.collapsedNodes, n.start.line = line) ↔
        ∀ m ∈ o.collapsedNodes, m.start.line = line →
          ∀ n, o.OpensOutermost line n → n ∈ o.collapsedNodes) := by
  intro metas
  have nests : o.Nests := (before.nests_rebuild lines).of_refolds folded
  refine ⟨map_indicator_lineMetas, fun line info there => ?_⟩
  have flag := isCollapsed_iff nests there
  refine ⟨flag, ?_⟩
  rw [flag]
  constructor
  · intro told m hm opens n outer
    obtain ⟨first, collapsed, outermost⟩ := told.mpr ⟨m, hm, opens⟩
    rw [← nests.nodeAtLine?_eq_some_iff] at outer outermost
    cases outer.symm.trans outermost
    exact collapsed
  · intro all
    constructor
    · rintro ⟨n, hn, outer⟩
      exact ⟨n, hn, outer.2.1⟩
    · rintro ⟨m, hm, opens⟩
      obtain ⟨n, found⟩ := Outline.exists_nodeAtLine? (List.mem_of_mem_filter hm) opens
      have outer := nests.nodeAtLine?_eq_some_iff.mp found
      exact ⟨n, all m hm opens n outer, outer⟩

def ownedList : List Line := ["\x7b\"a\": [".toList, "1".toList, "]\x7d".toList]

theorem indicators_tell_of_outermost_ownedList :
    let found := (Outline.empty.rebuild ownedList).1
    let o := { found with collapsed := [0, 1] }
    found.Refolds o ∧ o.collapsedNodes.map (·.start.line) = [0, 0] ∧
      (indicators o 3).map Prod.snd = [true, false, false] ∧
      ∀ ranges hidden, (lineMetas ownedList o ranges hidden).map LineMeta.isCollapsed =
        [true, false, false] := by
  intro found o
  have folded : found.Refolds o := ⟨[0, 1], rfl⟩
  have told : (indicators o 3).map Prod.snd = [true, false, false] := by decide
  refine ⟨folded, by decide, told, fun ranges hidden => ?_⟩
  obtain ⟨written, -⟩ := indicators_tell_of_outermost ownedList folded ranges hidden
  rw [← told, ← show ownedList.length = 3 from rfl, ← written, List.map_map]
  rfl

/-- While only the list is collapsed, its items are hidden and no line tells of it. -/
theorem object_takes_place_of_list :
    let found := (Outline.empty.rebuild ownedList).1
    let o := { found with collapsed := [1] }
    found.Refolds o ∧ (∃ n ∈ o.collapsedNodes, n.start.line = 0 ∧ n.hidesLine 1) ∧
      ∀ ranges hidden, ∀ info ∈ lineMetas ownedList o ranges hidden,
        info.isCollapsed = false := by
  intro found o
  refine ⟨⟨[1], rfl⟩, by decide, fun ranges hidden info there => ?_⟩
  have flags : ∀ flag ∈ (indicators o 3).map Prod.snd, flag = false := by decide
  have written : (lineMetas ownedList o ranges hidden).map _ = indicators o 3 :=
    map_indicator_lineMetas
  rw [← written, List.map_map] at flags
  exact flags _ (List.mem_map_of_mem there)

end View

end FeatureText
