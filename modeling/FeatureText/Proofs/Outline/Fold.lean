import FeatureText.Proofs.Outline.Identity

/-! What folding may do: it collapses nodes, none of them twice, and expands. So what is collapsed
always belongs to a node, be it one that is kept for later, and another rebuild from the lines of
the last scan changes nothing. -/
namespace FeatureText

theorem Node.snd_ofEntries_of_known {known again : List Node} {fresh : NodeId} {path : List NodeId}
    {keys : List Text} {entries : List Entry}
    (h : ∀ n ∈ (ofEntries known fresh path keys entries).1,
      again.find? (isKnownAs n.key n.occurrence) = some n) (unused : NodeId) :
    (ofEntries again unused path keys entries).2 = unused := by
  induction entries generalizing fresh path keys with
  | nil => rfl
  | cons e rest ih =>
    obtain ⟨id, next, eq⟩ := exists_ofEntries_cons known fresh path keys e rest
    rw [eq, List.forall_mem_cons] at h
    have found : again.find? (isKnownAs e.span.key (keys.count e.span.key)) =
        some (ofEntry id (keys.count e.span.key) (around path e.depth) e) := h.1
    simp only [ofEntries, found]
    exact ih h.2

namespace Outline

/-- What is collapsed are nodes, those that are kept for later among them. -/
def IsLive (o : Outline) : Prop := ∀ id ∈ o.collapsed, ∃ n ∈ o.known, n.id = id

/-- The second outline comes from the first by collapsing nodes and expanding. -/
structure Folds (o p : Outline) : Prop where
  refolds : o.Refolds p
  once : o.collapsed.Nodup → p.collapsed.Nodup
  live : ∀ id ∈ p.collapsed, id ∈ o.collapsed ∨ ∃ n ∈ o.known, n.id = id

variable {o p q : Outline} {lines : List Line}

namespace Folds

theorem refl (o : Outline) : o.Folds o := ⟨.refl o, id, fun _ => .inl⟩

theorem trans (h : o.Folds p) (h' : p.Folds q) : o.Folds q where
  refolds := h.refolds.trans h'.refolds
  once := h'.once ∘ h.once
  live id hi := (h'.live id hi).elim (h.live id) fun there => .inr (h.refolds.known ▸ there)

theorem isLive (h : o.Folds p) (live : o.IsLive) : p.IsLive := fun id hi => by
  rw [h.refolds.known]
  exact (h.live id hi).elim (live id) fun there => there

theorem sound (h : o.Folds p) (sound : o.Sound) : p.Sound where
  names := h.refolds.known ▸ sound.names
  ids := h.refolds.known ▸ sound.ids
  below := h.refolds.known ▸ h.refolds.fresh ▸ sound.below
  counted := h.refolds.known ▸ sound.counted
  led := h.refolds.known ▸ sound.led
  once := h.once sound.once
  live := h.isLive sound.live

theorem foldl {ι : Type} {step : Outline → ι → Outline}
    (h : ∀ (o : Outline) (item : ι), o.Folds (step o item)) (items : List ι) (o : Outline) :
    o.Folds (items.foldl step o) := by
  induction items generalizing o with
  | nil => exact .refl o
  | cons item items ih => exact (h o item).trans (ih _)

end Folds

theorem folds_collapse (o : Outline) (id : NodeId) : o.Folds (o.collapse id).1 := by
  refine ⟨o.refolds_collapse id, ?_, ?_⟩ <;> unfold collapse <;> split
  · next new =>
    have absent : id ∉ o.collapsed := by
      simpa [isCollapsed] using (Bool.and_eq_true_iff.mp new).2
    exact fun once => List.nodup_cons.mpr ⟨absent, once⟩
  · exact fun once => once
  · next new =>
    obtain ⟨n, hn, same⟩ := exists_of_isSome_node? (Bool.and_eq_true_iff.mp new).1
    exact List.forall_mem_cons.mpr
      ⟨.inr ⟨n, mem_known_of_mem_nodes hn, same⟩, fun _ => .inl⟩
  · exact fun _ => .inl

theorem folds_filter (o : Outline) (keep : NodeId → Bool) :
    o.Folds { o with collapsed := o.collapsed.filter keep } :=
  ⟨⟨_, rfl⟩, fun once => once.filter keep, fun _ hi => .inl (List.mem_of_mem_filter hi)⟩

theorem folds_expand (o : Outline) (id : NodeId) : o.Folds (o.expand id).1 := o.folds_filter _

theorem folds_expandEach (o : Outline) (ids : List NodeId) : o.Folds (o.expandEach ids) :=
  o.folds_filter _

theorem folds_expandAll (o : Outline) : o.Folds o.expandAll :=
  ⟨o.refolds_expandAll, fun _ => .nil, List.forall_mem_nil _⟩

theorem folds_toggle (o : Outline) (id : NodeId) : o.Folds (o.toggle id).1 := by
  unfold toggle
  split
  · dsimp only
    split
    · exact o.folds_expand id
    · exact o.folds_collapse id
  · exact .refl o

theorem folds_collapseAll (o : Outline) : o.Folds o.collapseAll := by
  unfold collapseAll
  exact .foldl (fun o n => o.folds_collapse n.id) o.nodes o

theorem folds_collapseEach (o : Outline) (ids : List NodeId) :
    o.Folds (o.collapseEach ids).1 := by
  induction ids generalizing o with
  | nil => exact .refl o
  | cons id ids ih => exact (o.folds_collapse id).trans (ih _)

theorem folds_collapseOutermost (o : Outline) (keys : List Text) :
    o.Folds (o.collapseOutermost keys).1 :=
  o.folds_collapseEach _

theorem collapsed_rebuild_subset (o : Outline) (lines : List Line) :
    (o.rebuild lines).1.collapsed ⊆ o.collapsed := by
  cases balanced : Bracket.isBalanced lines with
  | false =>
    rw [o.rebuild_of_not_balanced balanced]
    exact List.Subset.refl _
  | true =>
    rw [o.rebuild_of_balanced balanced]
    exact List.filter_subset_self _

theorem isLive_rebuild (h : o.IsLive) (lines : List Line) : (o.rebuild lines).1.IsLive := by
  cases balanced : Bracket.isBalanced lines with
  | false =>
    rw [o.rebuild_of_not_balanced balanced]
    exact h
  | true =>
    rw [o.rebuild_of_balanced balanced]
    intro id hi
    exact List.mem_map.mp (List.contains_iff_mem.mp (List.mem_filter.mp hi).2)

theorem Refolds.rebuilt (h : o.Refolds p) (lines : List Line) :
    (p.rebuild lines).2 = (o.rebuild lines).2 := by
  obtain ⟨collapsed, rfl⟩ := h
  unfold rebuild
  cases Tree.forest? lines <;> rfl

/-- A rebuild from the lines of the last scan finds all as it was, whatever the brackets were like
in between. -/
theorem rebuild_eq_self (scanned : (o.rebuild lines).1.Refolds p) (live : p.IsLive)
    (balanced : Bracket.isBalanced lines) (flag : Bool) :
    ({ p with balanced := flag }.rebuild lines).1 = p := by
  obtain ⟨collapsed, rfl⟩ := scanned
  have found : ∀ n ∈ (o.numbered lines).1,
      (o.numbered lines).1.find? (Node.isKnownAs n.key n.occurrence) = some n :=
    fun n hn => Node.find?_ofEntries hn
  rw [o.rebuild_of_balanced balanced] at live ⊢
  rw [rebuild_of_balanced _ balanced]
  have nodes : (Node.ofEntries (o.numbered lines).1 (o.numbered lines).2 [] [] (scan lines)).1 =
      (o.numbered lines).1 := Node.ofEntries_of_known found _
  have fresh : (Node.ofEntries (o.numbered lines).1 (o.numbered lines).2 [] [] (scan lines)).2 =
      (o.numbered lines).2 := Node.snd_ofEntries_of_known found _
  have kept : collapsed.filter (((o.numbered lines).1.map Node.id).contains ·) = collapsed :=
    List.filter_eq_self.mpr fun id hi => List.contains_iff_mem.mpr (List.mem_map.mpr (live id hi))
  simp only [numbered] at nodes fresh kept ⊢
  rw [nodes, fresh, kept]

end Outline

theorem CollapseRule.folds_apply (rule : CollapseRule) (o : Outline)
    (ranges : List FeatureRange) (written : List Json) :
    o.Folds (rule.apply o ranges written) := by
  cases rule with
  | keys ks => exact o.folds_collapseOutermost ks
  | features => exact o.folds_collapseOutermost [rootKey]
  | perFeature choose =>
    refine .foldl (fun o r => ?_) ranges o
    cases written[r.index]? with
    | none => exact .refl o
    | some feature => exact o.folds_collapseEach _
  | unchanged => exact .refl o

end FeatureText
