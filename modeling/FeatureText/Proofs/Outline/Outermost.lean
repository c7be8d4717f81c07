import FeatureText.Proofs.Outline.Fold
import FeatureText.Proofs.Outline.Formatted
import FeatureText.Proofs.Outline.Nesting

/-! Collapsing by keys. A node is collapsed if its key is one of them and no node around it has one
of them, so what is collapsed can be told from the brackets and their keys alone. -/
namespace FeatureText

/-- Of some names, which go outwards, the first has a property and no other has. -/
def isOutermost (p : Text → Bool) (name : Text) (around : List Text) : Bool :=
  p name && !around.any p

theorem isOutermost_map (p : Text → Bool) (spell : Text → Text) (name : Text)
    (around : List Text) :
    isOutermost p (spell name) (around.map spell) = isOutermost (p ∘ spell) name around := by
  rw [isOutermost, List.any_map]
  rfl

/-- Of some nodes, one has one of the keys and none around it has one of them. -/
def Node.IsOutermost (nodes : List Node) (keys : List Text) (n : Node) : Prop :=
  n.key ∈ keys ∧ ∀ m ∈ nodes, m.span.Encloses n.span → m.key ∉ keys

namespace Outline

variable {o p : Outline} {lines : List Line} {n : Node} {keys : List Text}

theorem Refolds.node? (h : o.Refolds p) (id : NodeId) : p.node? id = o.node? id := by
  rw [Outline.node?, Outline.node?, h.nodes]

theorem isSome_node? (h : n ∈ o.nodes) : (o.node? n.id).isSome :=
  List.find?_isSome.mpr ⟨n, h, beq_self_eq_true n.id⟩

theorem isCollapsed_collapse (o : Outline) (id other : NodeId) :
    (o.collapse id).1.isCollapsed other ↔
      o.isCollapsed other ∨ other = id ∧ (o.node? other).isSome := by
  unfold collapse
  split
  · next new =>
    obtain ⟨there, -⟩ := Bool.and_eq_true_iff.mp new
    simp only [isCollapsed, List.contains_iff_mem, List.mem_cons]
    grind
  · next old =>
    simp only [Bool.and_eq_true, Bool.not_eq_true', not_and, Bool.not_eq_false] at old
    refine ⟨.inl, ?_⟩
    rintro (before | ⟨rfl, there⟩)
    · exact before
    · exact old there

theorem isCollapsed_collapseEach (o : Outline) (ids : List NodeId) (id : NodeId) :
    (o.collapseEach ids).1.isCollapsed id ↔
      o.isCollapsed id ∨ id ∈ ids ∧ (o.node? id).isSome := by
  induction ids generalizing o with
  | nil => simp [collapseEach]
  | cons first ids ih =>
    have rest := ih (o.collapse first).1
    rw [isCollapsed_collapse, (o.refolds_collapse first).node?] at rest
    rw [List.mem_cons, or_and_right, ← or_assoc]
    exact rest

/-- With numbers of their own, just the nodes that are told to collapse do so. -/
theorem isCollapsed_collapseEach_map (distinct : (o.nodes.map Node.id).Nodup) {chosen : List Node}
    (sub : chosen ⊆ o.nodes) (h : n ∈ o.nodes) :
    (o.collapseEach (chosen.map Node.id)).1.isCollapsed n.id ↔
      o.isCollapsed n.id ∨ n ∈ chosen := by
  rw [isCollapsed_collapseEach, and_iff_left (isSome_node? h)]
  refine or_congr_right ⟨fun there => ?_, List.mem_map_of_mem⟩
  obtain ⟨m, hm, number⟩ := List.mem_map.mp there
  rwa [← List.inj_on_of_nodup_map distinct (sub hm) h number]

theorem outermost_subset (o : Outline) (keys : List Text) : o.outermost keys ⊆ o.nodes :=
  List.filter_subset_self _

theorem isCollapsed_collapseOutermost (distinct : (o.nodes.map Node.id).Nodup) (h : n ∈ o.nodes)
    (keys : List Text) :
    (o.collapseOutermost keys).1.isCollapsed n.id ↔ o.isCollapsed n.id ∨ n ∈ o.outermost keys :=
  isCollapsed_collapseEach_map distinct (o.outermost_subset keys) h

theorem isCollapsed_collapseWithin (distinct : (o.nodes.map Node.id).Nodup) (h : n ∈ o.nodes)
    (first last : Nat) :
    (o.collapseWithin keys first last).1.isCollapsed n.id ↔
      o.isCollapsed n.id ∨
        n ∈ o.outermost keys ∧ first ≤ n.start.line ∧ n.stop.line ≤ last := by
  have sub : (o.outermost keys).filter (fun n => first ≤ n.start.line && n.stop.line ≤ last) ⊆
      o.nodes := List.Subset.trans (List.filter_subset_self _) (o.outermost_subset keys)
  rw [collapseWithin, isCollapsed_collapseEach_map distinct sub h]
  simp [List.mem_filter]

theorem snd_collapse (o : Outline) (id : NodeId) :
    (o.collapse id).2 = ((o.node? id).isSome && !o.isCollapsed id) := by
  unfold collapse
  split
  · next new => exact new.symm
  · next old => exact (eq_false_of_ne_true old).symm

theorem snd_collapseEach_cons (o : Outline) (id : NodeId) (ids : List NodeId) :
    (o.collapseEach (id :: ids)).2 =
      ((o.collapse id).1.collapseEach ids).2 + if (o.collapse id).2 then 1 else 0 := by
  change (if (o.collapse id).2 then _ else _) = _
  split <;> rfl

theorem collapseEach_eq_self {ids : List NodeId} (h : (o.collapseEach ids).2 = 0) :
    (o.collapseEach ids).1 = o := by
  induction ids with
  | nil => rfl
  | cons id ids ih =>
    obtain ⟨rest, first⟩ := Nat.add_eq_zero_iff.mp ((o.snd_collapseEach_cons id ids).symm.trans h)
    have old : (o.collapse id).2 = false := by simpa using first
    have same : (o.collapse id).1 = o := by
      rw [snd_collapse] at old
      rw [collapse, if_neg (ne_true_of_eq_false old)]
    rw [same] at rest
    change ((o.collapse id).1.collapseEach ids).1 = o
    rw [same]
    exact ih rest

/-- Those are counted that were not collapsed before. -/
theorem snd_collapseEach {ids : List NodeId} (distinct : ids.Nodup) :
    (o.collapseEach ids).2 =
      ids.countP fun id => (o.node? id).isSome && !o.isCollapsed id := by
  induction ids generalizing o with
  | nil => rfl
  | cons id ids ih =>
    rw [List.nodup_cons] at distinct
    have others : ids.countP (fun other => ((o.collapse id).1.node? other).isSome &&
          !(o.collapse id).1.isCollapsed other) =
        ids.countP fun other => (o.node? other).isSome && !o.isCollapsed other := by
      refine List.countP_congr fun other ho => ?_
      have different : other ≠ id := fun same => distinct.1 (same ▸ ho)
      have kept := o.isCollapsed_collapse id other
      rw [or_iff_left fun h => different h.1] at kept
      rw [(o.refolds_collapse id).node?, Bool.eq_iff_iff.mpr kept]
    have rest := ih (o := (o.collapse id).1) distinct.2
    rw [others] at rest
    rw [snd_collapseEach_cons, List.countP_cons, rest, snd_collapse]

theorem snd_collapseOutermost (distinct : (o.nodes.map Node.id).Nodup) (keys : List Text) :
    (o.collapseOutermost keys).2 =
      o.nodes.countP fun n => (o.collapseOutermost keys).1.isCollapsed n.id &&
        !o.isCollapsed n.id := by
  have chosen : ((o.outermost keys).map Node.id).Nodup :=
    distinct.sublist (List.filter_sublist.map Node.id)
  rw [collapseOutermost, snd_collapseEach chosen, List.countP_map, outermost, List.countP_filter,
    ← outermost, ← collapseOutermost]
  refine List.countP_congr fun n hn => ?_
  have collapsed := isCollapsed_collapseOutermost distinct hn keys
  rw [outermost, List.mem_filter, and_iff_right hn] at collapsed
  simp only [Function.comp_apply, isSome_node? hn, Bool.true_and, Bool.and_eq_true, collapsed]
  grind

theorem Refolds.outermost (h : o.Refolds p) (keys : List Text) :
    p.outermost keys = o.outermost keys := by
  rw [Outline.outermost, Outline.outermost, h.nodes]

theorem not_isCollapsed_expandAll (o : Outline) (id : NodeId) : ¬o.expandAll.isCollapsed id := by
  simp [expandAll, isCollapsed]

theorem mem_outermost_iff_isOutermost (balanced : Bracket.isBalanced lines)
    (distinct : ((o.rebuild lines).1.nodes.map Node.id).Nodup)
    (hn : n ∈ (o.rebuild lines).1.nodes) :
    n ∈ (o.rebuild lines).1.outermost keys ↔ n.IsOutermost (o.rebuild lines).1.nodes keys := by
  simp only [outermost, List.mem_filter, and_iff_right hn, Node.IsOutermost, Bool.and_eq_true,
    List.contains_iff_mem, Bool.not_eq_true', List.any_eq_false, not_and]
  refine and_congr_right fun _ => forall₂_congr fun m hm => ?_
  rw [isAncestor_iff balanced distinct hm hn]
  exact imp_not_comm

/-- A node is an outermost one by its key and the keys of the brackets around its own. -/
theorem mem_outermost_iff (balanced : Bracket.isBalanced lines)
    (distinct : ((o.rebuild lines).1.nodes.map Node.id).Nodup)
    (hn : n ∈ (o.rebuild lines).1.nodes) :
    n ∈ (o.rebuild lines).1.outermost keys ↔
      isOutermost keys.contains n.key
        ((Tree.enclosing (paths lines) n.span).map Span.key) := by
  rw [mem_outermost_iff_isOutermost balanced distinct hn, o.enclosing_paths lines, isOutermost]
  simp [Node.IsOutermost, mem_enclosers_iff, Node.span]

theorem map_isCollapsed_collapseOutermost (balanced : Bracket.isBalanced lines)
    (distinct : ((o.rebuild lines).1.nodes.map Node.id).Nodup) (keys : List Text) :
    let folded := ((o.rebuild lines).1.expandAll.collapseOutermost keys).1
    folded.nodes.map (fun n => (n.key, n.bracket, n.depth, folded.isCollapsed n.id)) =
      (paths lines).map fun path =>
        (path.1.key, path.1.bracket, path.2.length,
          isOutermost keys.contains path.1.key (path.2.map Span.key)) := by
  intro folded
  have nodes : folded.nodes = (o.rebuild lines).1.nodes :=
    ((refolds_expandAll _).trans (refolds_collapseOutermost _ keys)).nodes
  let told (s : Span) : Text × Bracket × Nat × Bool :=
    let around := Tree.enclosing (paths lines) s
    (s.key, s.bracket, around.length, isOutermost keys.contains s.key (around.map Span.key))
  have spans : folded.nodes.map (fun n => (n.key, n.bracket, n.depth, folded.isCollapsed n.id)) =
      (folded.nodes.map Node.span).map told := by
    rw [List.map_map, nodes]
    refine List.map_congr_left fun n hn => ?_
    have depth : n.depth = (Tree.enclosing (paths lines) n.span).length := by
      rw [Node.depth, ancestors_eq balanced hn, o.enclosing_paths lines]
      simp
    have collapsed : folded.isCollapsed n.id =
        isOutermost keys.contains n.key ((Tree.enclosing (paths lines) n.span).map Span.key) := by
      have expanded := refolds_expandAll (o.rebuild lines).1
      rw [← expanded.nodes] at distinct hn
      rw [Bool.eq_iff_iff, isCollapsed_collapseOutermost distinct hn, expanded.outermost,
        or_iff_right (not_isCollapsed_expandAll _ _)]
      exact mem_outermost_iff balanced (expanded.nodes ▸ distinct) (expanded.nodes ▸ hn)
    rw [depth, collapsed]
    rfl
  rw [spans, nodes, o.map_span_nodes_rebuild lines, List.map_map]
  refine List.map_congr_left fun path hp => ?_
  simp only [Function.comp_apply, told, ← snd_eq_of_mem_paths hp]

theorem map_isCollapsed_formatFeatures (step : Nat) (features : List Json)
    (distinct : ((o.rebuild (splitLines (formatFeatures step features))).1.nodes.map
      Node.id).Nodup) (keys : List Text) :
    let rebuilt := (o.rebuild (splitLines (formatFeatures step features))).1
    let folded := (rebuilt.expandAll.collapseOutermost keys).1
    folded.nodes.map (fun n => (n.key, n.bracket, n.depth, folded.isCollapsed n.id)) =
      (Json.spreads features).map fun c =>
        (c.key, c.bracket, c.depth,
          isOutermost (fun name => keys.contains (Quoted.spelling name)) c.name c.around) := by
  intro rebuilt folded
  have told := map_isCollapsed_collapseOutermost (isBalanced_formatFeatures step features) distinct
    keys
  let fold (shape : Shape) : Text × Bracket × Nat × Bool :=
    (shape.1, shape.2.1, shape.2.2.length, isOutermost keys.contains shape.1 shape.2.2)
  have shapes := congrArg (List.map fold) (map_shapeOf_paths step features)
  rw [List.map_map, List.map_map] at shapes
  refine told.trans (Eq.trans (List.map_congr_left fun path _ => ?_)
    (shapes.trans (List.map_congr_left fun c _ => ?_)))
  · simp only [Function.comp_apply, fold, Tree.shapeOf, List.length_map]
  · simp only [Function.comp_apply, fold, Container.shape, Container.key, List.length_map,
      isOutermost_map]
    rfl

end Outline

end FeatureText
