import FeatureText.Editor.Features
import FeatureText.Proofs.Bracket.Nested

/-! Folding. Whatever is collapsed or expanded, the nodes stay as they are; only a rebuild from the
lines changes them. -/
namespace FeatureText

namespace Outline

/-- The second outline differs from the first at most in what is collapsed. -/
def Refolds (o p : Outline) : Prop := ∃ collapsed, p = { o with collapsed }

theorem Refolds.refl (o : Outline) : o.Refolds o := ⟨o.collapsed, rfl⟩

theorem Refolds.trans {o p q : Outline} (h : o.Refolds p) (h' : p.Refolds q) : o.Refolds q := by
  obtain ⟨collapsed, rfl⟩ := h
  obtain ⟨collapsed', rfl⟩ := h'
  exact ⟨collapsed', rfl⟩

theorem Refolds.balanced {o p : Outline} (h : o.Refolds p) : p.balanced = o.balanced := by
  obtain ⟨collapsed, rfl⟩ := h
  rfl

theorem Refolds.known {o p : Outline} (h : o.Refolds p) : p.known = o.known := by
  obtain ⟨collapsed, rfl⟩ := h
  rfl

theorem Refolds.fresh {o p : Outline} (h : o.Refolds p) : p.fresh = o.fresh := by
  obtain ⟨collapsed, rfl⟩ := h
  rfl

theorem refolds_collapse (o : Outline) (id : NodeId) : o.Refolds (o.collapse id).1 := by
  unfold collapse
  split
  · exact ⟨_, rfl⟩
  · exact .refl o

theorem refolds_expand (o : Outline) (id : NodeId) : o.Refolds (o.expand id).1 := ⟨_, rfl⟩

theorem refolds_expandAll (o : Outline) : o.Refolds o.expandAll := ⟨_, rfl⟩

theorem refolds_toggle (o : Outline) (id : NodeId) : o.Refolds (o.toggle id).1 := by
  unfold toggle
  split
  · dsimp only
    split
    · exact refolds_expand o id
    · exact refolds_collapse o id
  · exact .refl o

theorem refolds_foldl {ι : Type} {step : Outline → ι → Outline}
    (h : ∀ (o : Outline) (item : ι), o.Refolds (step o item)) (items : List ι) (o : Outline) :
    o.Refolds (items.foldl step o) := by
  induction items generalizing o with
  | nil => exact .refl o
  | cons item items ih => exact (h o item).trans (ih _)

theorem refolds_collapseAll (o : Outline) : o.Refolds o.collapseAll := by
  unfold collapseAll
  exact refolds_foldl (fun o n => o.refolds_collapse n.id) o.nodes o

theorem refolds_collapseEach (o : Outline) (ids : List NodeId) :
    o.Refolds (o.collapseEach ids).1 := by
  induction ids generalizing o with
  | nil => exact .refl o
  | cons id ids ih => exact (o.refolds_collapse id).trans (ih _)

theorem refolds_collapseOutermost (o : Outline) (keys : List Text) :
    o.Refolds (o.collapseOutermost keys).1 :=
  o.refolds_collapseEach _

theorem refolds_collapseWithin (o : Outline) (keys : List Text) (first last : Nat) :
    o.Refolds (o.collapseWithin keys first last).1 :=
  o.refolds_collapseEach _

theorem balanced_rebuild (o : Outline) (lines : List Line) :
    (o.rebuild lines).1.balanced = Bracket.isBalanced lines := by
  rw [← Tree.isSome_forest?, rebuild]
  split
  · next none => rw [none]; rfl
  · next forest some => rw [some]; rfl

end Outline

theorem CollapseRule.refolds_apply (rule : CollapseRule) (o : Outline)
    (ranges : List FeatureRange) (written : List Json) :
    o.Refolds (rule.apply o ranges written) := by
  cases rule with
  | keys ks => exact o.refolds_collapseOutermost ks
  | features => exact o.refolds_collapseOutermost [rootKey]
  | perFeature choose =>
    refine Outline.refolds_foldl (fun o r => ?_) ranges o
    cases written[r.index]? with
    | none => exact .refl o
    | some feature => exact o.refolds_collapseWithin _ _ _
  | unchanged => exact .refl o

end FeatureText
