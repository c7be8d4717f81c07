import FeatureText.Proofs.Bracket.Pair
import FeatureText.Proofs.Feature.Rows

/-! Features and the nodes at the root. Both are told from the trees that stand in no other: a
feature is one of braces, on however many lines, and a node at the root is one of several lines, of
either kind. -/
namespace FeatureText

open FeatureText.Bracket

namespace Tree

mutual

def pairs : Tree → List Pair
  | .node span children => pairsOfForest children ++ [⟨span.bracket, span.start, span.stop⟩]

def pairsOfForest : List Tree → List Pair
  | [] => []
  | tree :: trees => tree.pairs ++ pairsOfForest trees

end

mutual

theorem pairUp?_marks (tree : Tree) (stack : List (Bracket × Position))
    (rest : List (Side × Position)) :
    pairUp? stack (tree.marks ++ rest) = (pairUp? stack rest).map (tree.pairs ++ ·) := by
  cases tree with
  | node span children =>
    rw [marks, pairs, List.cons_append, List.append_assoc, List.singleton_append, pairUp?,
      pairUp?_marksOfForest children, pairUp?, if_pos rfl, Option.map_map]
    simp [Function.comp_def]

/-- The brackets of a forest make the pairs of its trees. -/
theorem pairUp?_marksOfForest (trees : List Tree) (stack : List (Bracket × Position))
    (rest : List (Side × Position)) :
    pairUp? stack (marksOfForest trees ++ rest) =
      (pairUp? stack rest).map (pairsOfForest trees ++ ·) := by
  cases trees with
  | nil => simp [marksOfForest, pairsOfForest]
  | cons tree trees =>
    rw [marksOfForest, pairsOfForest, List.append_assoc, pairUp?_marks tree,
      pairUp?_marksOfForest trees, Option.map_map]
    simp [Function.comp_def]

end

theorem pairs_of_forest? {lines : List Line} {forest : List Tree}
    (h : forest? lines = some forest) : Bracket.pairs lines = pairsOfForest forest := by
  have whole := pairUp?_marksOfForest forest [] []
  rw [List.append_nil, marks_of_forest? h] at whole
  rw [Bracket.pairs, whole]
  simp [pairUp?]

mutual

theorem mem_marks_of_mem_pairs {tree : Tree} {pair : Pair} (h : pair ∈ tree.pairs) :
    (.opening pair.bracket, pair.start) ∈ tree.marks ∧
      (.closing pair.bracket, pair.stop) ∈ tree.marks := by
  cases tree with
  | node span children =>
    rw [pairs] at h
    rw [marks]
    rcases List.mem_append.mp h with h | h
    · obtain ⟨start, stop⟩ := mem_marksOfForest_of_mem_pairsOfForest h
      exact ⟨List.mem_cons_of_mem _ (List.mem_append_left _ start),
        List.mem_cons_of_mem _ (List.mem_append_left _ stop)⟩
    · cases List.mem_singleton.mp h
      simp

theorem mem_marksOfForest_of_mem_pairsOfForest {trees : List Tree} {pair : Pair}
    (h : pair ∈ pairsOfForest trees) :
    (.opening pair.bracket, pair.start) ∈ marksOfForest trees ∧
      (.closing pair.bracket, pair.stop) ∈ marksOfForest trees := by
  cases trees with
  | nil => cases h
  | cons tree trees =>
    rw [pairsOfForest] at h
    rw [marksOfForest]
    rcases List.mem_append.mp h with h | h
    · obtain ⟨start, stop⟩ := mem_marks_of_mem_pairs h
      exact ⟨List.mem_append_left _ start, List.mem_append_left _ stop⟩
    · obtain ⟨start, stop⟩ := mem_marksOfForest_of_mem_pairsOfForest h
      exact ⟨List.mem_append_right _ start, List.mem_append_right _ stop⟩

end

end Tree

namespace Bracket

def IsInside (pairs : List Pair) (p : Position) : Prop :=
  ∃ pair ∈ pairs, pair.start < p ∧ p < pair.stop

instance (pairs : List Pair) (p : Position) : Decidable (IsInside pairs p) :=
  inferInstanceAs (Decidable (∃ pair ∈ pairs, _))

def bracesOutside (pairs : List Pair) (marks : List (Side × Position)) : List (Side × Position) :=
  marks.filter fun mark => mark.1 = .opening .brace ∧ ¬IsInside pairs mark.2

/-- Where the braces open that are inside of no other brackets, in the order of the document. -/
def outerBraces (lines : List Line) : List Position :=
  (bracesOutside (pairs lines) (Token.brackets lines)).map Prod.snd

theorem bracesOutside_congr {pairs others : List Pair} {marks : List (Side × Position)}
    (h : ∀ mark ∈ marks, IsInside pairs mark.2 ↔ IsInside others mark.2) :
    bracesOutside pairs marks = bracesOutside others marks := by
  apply List.filter_congr
  intro mark hm
  simp only [h mark hm]

theorem isInside_append_iff {pairs others : List Pair} {p : Position} :
    IsInside (pairs ++ others) p ↔ IsInside pairs p ∨ IsInside others p := by
  simp only [IsInside, List.mem_append, or_and_right, exists_or]

theorem not_isInside_of_lt_start {pairs : List Pair} {p : Position}
    (h : ∀ pair ∈ pairs, p < pair.start) : ¬IsInside pairs p := by
  rintro ⟨pair, hp, before, -⟩
  exact Position.lt_irrefl _ (Position.lt_trans before (h pair hp))

theorem not_isInside_of_stop_lt {pairs : List Pair} {p : Position}
    (h : ∀ pair ∈ pairs, pair.stop < p) : ¬IsInside pairs p := by
  rintro ⟨pair, hp, -, behind⟩
  exact Position.lt_irrefl _ (Position.lt_trans behind (h pair hp))

end Bracket

namespace Tree

def span : Tree → Span
  | .node span _ => span

theorem filterMap_objectPlaces? (trees : List Tree) :
    trees.filterMap objectPlaces? =
      ((trees.map span).filter (·.bracket = .brace)).map fun s => (s.start, s.stop) := by
  induction trees with
  | nil => rfl
  | cons tree trees ih =>
    obtain ⟨span, children⟩ := tree
    by_cases brace : span.bracket = .brace <;> simp [objectPlaces?, Tree.span, brace, ih]

/-- Of the brackets of a tree only the first is inside of no pair. -/
theorem bracesOutside_marks {tree : Tree} (h : Ordered tree.marks) :
    (bracesOutside tree.pairs tree.marks).map Prod.snd =
      ([tree.span].filter (·.bracket = .brace)).map Span.start := by
  obtain ⟨span, children⟩ := tree
  obtain ⟨-, within⟩ := h.node
  let own : Pair := ⟨span.bracket, span.start, span.stop⟩
  have first : ¬IsInside (pairsOfForest children ++ [own]) span.start := by
    rw [isInside_append_iff, not_or]
    constructor
    · apply not_isInside_of_lt_start
      intro pair hp
      exact (within _ (mem_marksOfForest_of_mem_pairsOfForest hp).1).1
    · rintro ⟨pair, hp, before, -⟩
      cases List.mem_singleton.mp hp
      exact Position.lt_irrefl _ before
  have inner : bracesOutside (pairsOfForest children ++ [own]) (marksOfForest children) = [] := by
    apply List.filter_eq_nil_iff.mpr
    intro mark hm
    have inside : IsInside (pairsOfForest children ++ [own]) mark.2 :=
      isInside_append_iff.mpr (.inr ⟨own, List.mem_singleton_self own, within mark hm⟩)
    simp [inside]
  rw [marks, pairs, bracesOutside, List.filter_cons, List.filter_append, ← bracesOutside, inner]
  by_cases brace : span.bracket = .brace
  · rw [if_pos (decide_eq_true ⟨congrArg Side.opening brace, first⟩)]
    simp [Tree.span, brace]
  · simp [Tree.span, brace]

theorem bracesOutside_marksOfForest {trees : List Tree} (h : Ordered (marksOfForest trees)) :
    (bracesOutside (pairsOfForest trees) (marksOfForest trees)).map Prod.snd =
      ((trees.map span).filter (·.bracket = .brace)).map Span.start := by
  induction trees with
  | nil => rfl
  | cons tree trees ih =>
    obtain ⟨here, later⟩ := h.of_cons
    rw [Ordered, marksOfForest, List.pairwise_append] at h
    obtain ⟨-, -, apart⟩ := h
    have front : ∀ mark ∈ tree.marks,
        IsInside (tree.pairs ++ pairsOfForest trees) mark.2 ↔ IsInside tree.pairs mark.2 := by
      intro mark hm
      rw [isInside_append_iff, or_iff_left]
      apply not_isInside_of_lt_start
      intro pair hp
      exact apart mark hm _ (mem_marksOfForest_of_mem_pairsOfForest hp).1
    have behind : ∀ mark ∈ marksOfForest trees,
        IsInside (tree.pairs ++ pairsOfForest trees) mark.2 ↔
          IsInside (pairsOfForest trees) mark.2 := by
      intro mark hm
      rw [isInside_append_iff, or_iff_right]
      apply not_isInside_of_stop_lt
      intro pair hp
      exact apart _ (mem_marks_of_mem_pairs hp).2 mark hm
    rw [pairsOfForest, marksOfForest, bracesOutside, List.filter_append, ← bracesOutside,
      ← bracesOutside, bracesOutside_congr front, bracesOutside_congr behind, List.map_append,
      bracesOutside_marks here, ih later, ← List.map_append, ← List.filter_append]
    rfl

theorem mem_pairsOfForest_of_mem {trees : List Tree} {tree : Tree} (h : tree ∈ trees) :
    ⟨tree.span.bracket, tree.span.start, tree.span.stop⟩ ∈ pairsOfForest trees := by
  induction trees with
  | nil => cases h
  | cons first trees ih =>
    rw [pairsOfForest, List.mem_append]
    rcases List.mem_cons.mp h with rfl | h
    · obtain ⟨span, children⟩ := tree
      exact .inl (List.mem_append_right _ (List.mem_singleton_self _))
    · exact .inr (ih h)

theorem paths_eq_nil {span : Span} {children : List Tree} {around : List Span}
    (h : Ordered (node span children).marks) (flat : span.isTall = false) :
    pathsOfForest around children = [] := by
  apply List.eq_nil_iff_forall_not_mem.mpr
  intro path hp
  have encloses := encloses_of_mem_pathsOfForest h hp
  have tall : path.1.start.line < path.1.stop.line :=
    of_decide_eq_true (mem_marks_of_mem_pathsOfForest hp).2.2
  have lines : ¬span.start.line < span.stop.line := of_decide_eq_false flat
  rw [Span.Encloses, Position.lt_def, Position.lt_def] at encloses
  omega

theorem filter_paths {tree : Tree} (h : Ordered tree.marks) :
    ((tree.paths []).filter (·.2.isEmpty)).map Prod.fst = [tree.span].filter Span.isTall := by
  obtain ⟨span, children⟩ := tree
  rw [paths]
  cases tall : span.isTall with
  | false => simp [paths_eq_nil h tall, Tree.span, tall]
  | true =>
    have inner : (pathsOfForest [span] children).filter (·.2.isEmpty) = [] := by
      apply List.filter_eq_nil_iff.mpr
      intro path hp
      simp [snd_eq_of_mem_pathsOfForest h.node.1 hp]
    simp [inner, Tree.span, tall]

/-- The spans of several lines around which there are no others are those of the trees. -/
theorem filter_pathsOfForest {trees : List Tree} (h : Ordered (marksOfForest trees)) :
    ((pathsOfForest [] trees).filter (·.2.isEmpty)).map Prod.fst =
      (trees.map span).filter Span.isTall := by
  induction trees with
  | nil => rfl
  | cons tree trees ih =>
    rw [pathsOfForest, List.filter_append, List.map_append, filter_paths h.of_cons.1,
      ih h.of_cons.2, ← List.filter_append]
    rfl

end Tree

theorem Node.isNone_parent? (n : Node) : n.parent?.isNone = (n.depth == 0) := by
  rw [parent?, depth]
  cases n.ancestors <;> rfl

theorem Outline.filter_nodes_rebuild (o : Outline) {lines : List Line} {forest : List Tree}
    (h : Tree.forest? lines = some forest) :
    ((o.rebuild lines).1.nodes.filter (·.parent?.isNone)).map Node.span =
      (forest.map Tree.span).filter Span.isTall := by
  have entries : ((o.rebuild lines).1.nodes.filter (·.parent?.isNone)).map Node.entry =
      ((Tree.pathsOfForest [] forest).filter (·.2.isEmpty)).map Tree.entryOf := by
    have depth : (fun n : Node => n.parent?.isNone) = (·.depth == 0) ∘ Node.entry :=
      funext Node.isNone_parent?
    have empty : (fun path : Span × List Span => path.2.isEmpty) =
        (·.depth == 0) ∘ Tree.entryOf := by
      funext path
      simp only [Function.comp_apply, Tree.entryOf]
      cases path.2 <;> rfl
    rw [depth, empty, ← List.filter_map, ← List.filter_map, o.map_entry_nodes_rebuild,
      ← map_entryOf_paths, paths, h]
    rfl
  have spans := congrArg (List.map Entry.span) entries
  rw [List.map_map, List.map_map] at spans
  exact spans.trans (Tree.filter_pathsOfForest (Tree.ordered_of_forest? h))

namespace FeatureRange

theorem forall₂_of_map_eq {lines : List Line} {spans : List Span} {ranges : List FeatureRange}
    (h : ranges.map (fun r => (r.startLine, r.stopLine)) =
      spans.map fun s => (s.start.line, s.stop.line))
    (paired : ∀ s ∈ spans, ⟨.brace, s.start, s.stop⟩ ∈ pairs lines) :
    List.Forall₂ (fun p r => ∃ q, IsPartner lines .brace p q ∧
      r.startLine = p.line ∧ r.stopLine = q.line) (spans.map Span.start) ranges := by
  induction spans generalizing ranges with
  | nil =>
    rw [List.map_nil, List.map_eq_nil_iff] at h
    rw [h]
    exact .nil
  | cons s spans ih =>
    obtain ⟨r, ranges, rfl, same, h⟩ := List.map_eq_cons_iff.mp h
    obtain ⟨first, others⟩ := List.forall_mem_cons.mp paired
    obtain ⟨start, stop⟩ := Prod.mk.inj same
    exact .cons ⟨s.stop, isPartner_of_mem first, start, stop⟩ (ih h others)

/-- Where brackets match, the ranges are those of the braces inside of no other brackets, each up to
its partner; those of several lines are the nodes of braces without a parent. -/
theorem ranges_are_outermost_braces {lines : List Line} (balanced : isBalanced lines)
    (o : Outline) :
    List.Forall₂ (fun p r => ∃ q, IsPartner lines .brace p q ∧
      r.startLine = p.line ∧ r.stopLine = q.line) (outerBraces lines) (ofLines lines) ∧
    (ofLines lines).map index = List.range (outerBraces lines).length ∧
    ((ofLines lines).filter fun r => r.startLine < r.stopLine).map
        (fun r => (r.startLine, r.stopLine)) =
      (((o.rebuild lines).1.nodes.filter (·.parent?.isNone)).filter (·.bracket = .brace)).map
        fun n => (n.start.line, n.stop.line) := by
  rw [← Tree.isSome_forest?, Option.isSome_iff_exists] at balanced
  obtain ⟨forest, found⟩ := balanced
  let braces := (forest.map Tree.span).filter (·.bracket = .brace)
  have ranges := ofLines_eq_ofObjects (Tree.outerObjects_of_forest? found)
  rw [Tree.filterMap_objectPlaces?] at ranges
  have starts : outerBraces lines = braces.map Span.start := by
    rw [outerBraces, Tree.pairs_of_forest? found, ← Tree.marks_of_forest? found]
    exact Tree.bracesOutside_marksOfForest (Tree.ordered_of_forest? found)
  have places : (ofLines lines).map (fun r => (r.startLine, r.stopLine)) =
      braces.map fun s => (s.start.line, s.stop.line) := by
    rw [ranges, map_lines_ofObjects, List.map_map]
    rfl
  have paired : ∀ s ∈ braces, ⟨.brace, s.start, s.stop⟩ ∈ pairs lines := by
    intro s hs
    obtain ⟨there, brace⟩ := List.mem_filter.mp hs
    obtain ⟨tree, ht, rfl⟩ := List.mem_map.mp there
    rw [Tree.pairs_of_forest? found, ← of_decide_eq_true brace]
    exact Tree.mem_pairsOfForest_of_mem ht
  refine ⟨starts ▸ forall₂_of_map_eq places paired, ?_, ?_⟩
  · rw [ranges, map_index_ofObjects, starts, List.length_map, List.length_map]
  · have tall := congrArg (List.filter fun rows : Nat × Nat => rows.1 < rows.2) places
    rw [List.filter_map, List.filter_map] at tall
    have roots := congrArg (List.filter (·.bracket = .brace)) (o.filter_nodes_rebuild found)
    rw [List.filter_map, List.filter_comm _ _ (forest.map Tree.span)] at roots
    have rows := congrArg (List.map fun s => (s.start.line, s.stop.line)) roots
    rw [List.map_map] at rows
    exact tall.trans rows.symm

def scattered : List Line :=
  [['[', '{', '}'], [']', ',', '{', '}', ',', '{'], ['}', ',', '{', '}']]

theorem ranges_are_outermost_braces_scattered :
    isBalanced scattered ∧ (ofLines scattered).length = 3 ∧
      ((ofLines scattered).filter fun r => r.startLine < r.stopLine).map
        (fun r => (r.startLine, r.stopLine)) = [(1, 2)] := by
  have balanced : isBalanced scattered := by decide
  obtain ⟨paired, -, tall⟩ := ranges_are_outermost_braces balanced .empty
  have braces : outerBraces scattered = [⟨1, 2⟩, ⟨1, 5⟩, ⟨2, 2⟩] := by decide
  refine ⟨balanced, ?_, ?_⟩
  · rw [← paired.length_eq, braces]
    rfl
  · rw [tall]
    decide

end FeatureRange

end FeatureText
