import FeatureText.Proofs.Outline.Fold
import Mathlib.Data.List.DropRight

/-! Runs of an outline: rebuilds from any lines, matching or not, between which nodes are collapsed
and expanded. -/
namespace FeatureText

namespace Outline

inductive Step where
  | rebuild (lines : List Line)
  | toggle (id : NodeId)
  | collapse (id : NodeId)
  | expand (id : NodeId)
  | collapseAll
  | expandAll

def Step.scans : Step → Bool
  | rebuild lines => Bracket.isBalanced lines
  | _ => false

def apply (o : Outline) : Step → Outline
  | .rebuild lines => (o.rebuild lines).1
  | .toggle id => (o.toggle id).1
  | .collapse id => (o.collapse id).1
  | .expand id => (o.expand id).1
  | .collapseAll => o.collapseAll
  | .expandAll => o.expandAll

def minted (o : Outline) : Step → List NodeId
  | .rebuild lines => (o.rebuild lines).2.minted
  | _ => []

def run (o : Outline) (steps : List Step) : Outline := steps.foldl apply o

def mintedOver (o : Outline) : List Step → List NodeId
  | [] => []
  | step :: steps => o.minted step ++ (o.apply step).mintedOver steps

/-- The nodes of the last scan of a run, from when the brackets last matched. -/
def lastScan (steps : List Step) : List Node := (run empty (steps.rdropWhile (!·.scans))).nodes

/-- No node had the number at any time of the run. -/
def Unused (steps : List Step) (id : NodeId) : Prop :=
  ∀ earlier, earlier <+: steps → ∀ n ∈ (run empty earlier).nodes, n.id ≠ id

variable {o : Outline} {steps : List Step}

theorem run_append (o : Outline) (steps others : List Step) :
    o.run (steps ++ others) = (o.run steps).run others := List.foldl_append

theorem mintedOver_append (o : Outline) (steps others : List Step) :
    o.mintedOver (steps ++ others) = o.mintedOver steps ++ (o.run steps).mintedOver others := by
  induction steps generalizing o with
  | nil => rfl
  | cons step steps ih =>
    rw [List.cons_append, mintedOver, mintedOver, ih, List.append_assoc]
    rfl

theorem known_apply_of_not_scans {step : Step} (h : step.scans = false) :
    (o.apply step).known = o.known := by
  cases step with
  | rebuild lines => rw [apply, o.rebuild_of_not_balanced h]
  | toggle id => exact (o.refolds_toggle id).known
  | collapse id => exact (o.refolds_collapse id).known
  | expand id => exact (o.refolds_expand id).known
  | collapseAll => exact o.refolds_collapseAll.known
  | expandAll => exact o.refolds_expandAll.known

theorem known_run (steps : List Step) : (run empty steps).known = lastScan steps := by
  induction steps using List.reverseRecOn with
  | nil => rfl
  | append_singleton steps step ih =>
    rw [lastScan]
    cases scans : step.scans with
    | false =>
      rw [List.rdropWhile_concat_pos _ _ _ (by simp [scans]), run_append, run, List.foldl_cons,
        List.foldl_nil, known_apply_of_not_scans scans, ih, lastScan]
    | true =>
      rw [List.rdropWhile_concat_neg _ _ _ (by simp [scans]), nodes_eq_known]
      rw [run_append]
      cases step with
      | rebuild lines => exact (balanced_rebuild _ lines).trans scans
      | toggle | collapse | expand | collapseAll | expandAll => cases scans

namespace Sound

theorem apply (h : o.Sound) {step : Step}
    (room : o.fresh + (o.minted step).length < Node.idLimit) :
    (o.apply step).Sound ∧ o.minted step = List.range' o.fresh (o.minted step).length ∧
      (o.apply step).fresh = o.fresh + (o.minted step).length := by
  have folded {p : Outline} (folds : o.Folds p) :
      p.Sound ∧ [] = List.range' o.fresh 0 ∧ p.fresh = o.fresh :=
    ⟨folds.sound h, rfl, folds.refolds.fresh⟩
  cases step with
  | rebuild lines => exact h.rebuild room
  | toggle id => exact folded (o.folds_toggle id)
  | collapse id => exact folded (o.folds_collapse id)
  | expand id => exact folded (o.folds_expand id)
  | collapseAll => exact folded o.folds_collapseAll
  | expandAll => exact folded o.folds_expandAll

theorem run (h : o.Sound) (room : o.fresh + (o.mintedOver steps).length < Node.idLimit) :
    (o.run steps).Sound ∧
      o.mintedOver steps = List.range' o.fresh (o.mintedOver steps).length ∧
      (o.run steps).fresh = o.fresh + (o.mintedOver steps).length := by
  induction steps generalizing o with
  | nil => exact ⟨h, rfl, rfl⟩
  | cons step steps ih =>
    rw [mintedOver, List.length_append, ← Nat.add_assoc] at room ⊢
    obtain ⟨sound, first, next⟩ := h.apply (Nat.lt_of_le_of_lt (Nat.le_add_right _ _) room)
    rw [← next] at room
    obtain ⟨sound, others, last⟩ := ih sound room
    refine ⟨sound, ?_, last.trans (by rw [next])⟩
    rw [first, others, next, List.length_range', List.length_range', List.range'_append_1]

end Sound

section Room

variable (room : (mintedOver empty steps).length < Node.idLimit)

include room

theorem sound_run : (run empty steps).Sound := by
  rw [← Nat.zero_add (mintedOver empty steps).length] at room
  exact (sound_empty.run room).1

theorem fresh_run : (run empty steps).fresh = (mintedOver empty steps).length := by
  rw [← Nat.zero_add (mintedOver empty steps).length] at room ⊢
  exact (sound_empty.run room).2.2

theorem room_before {earlier : List Step} (h : earlier <+: steps) :
    (mintedOver empty earlier).length < Node.idLimit := by
  obtain ⟨later, rfl⟩ := h
  rw [mintedOver_append, List.length_append] at room
  exact Nat.lt_of_le_of_lt (Nat.le_add_right _ _) room

theorem unused_of_fresh_le {id : NodeId} (h : (run empty steps).fresh ≤ id) : Unused steps id := by
  intro earlier before n hn same
  have early := room_before room before
  have small : n.id < (mintedOver empty earlier).length :=
    fresh_run early ▸ (sound_run early).below n (mem_known_of_mem_nodes hn)
  obtain ⟨later, rfl⟩ := before
  rw [fresh_run room, mintedOver_append, List.length_append, ← same] at h
  exact Nat.lt_irrefl _ (Nat.lt_of_lt_of_le small (Nat.le_of_add_right_le h))

end Room

theorem room_of_rebuild {lines : List Line}
    (room : (mintedOver empty (steps ++ [.rebuild lines])).length < Node.idLimit) :
    (run empty steps).fresh + ((run empty steps).rebuild lines).2.minted.length < Node.idLimit := by
  rw [fresh_run (room_before room (List.prefix_append steps _))]
  rwa [mintedOver_append, List.length_append, mintedOver, mintedOver, List.append_nil] at room

theorem not_unused_of_mem_lastScan {n : Node} (h : n ∈ lastScan steps) : ¬Unused steps n.id :=
  fun unused => unused _ (List.rdropWhile_prefix _ steps) n h rfl

theorem fresh_le_iff_unused {lines : List Line} (balanced : Bracket.isBalanced lines)
    (room : (mintedOver empty (steps ++ [.rebuild lines])).length < Node.idLimit) {n : Node}
    (hn : n ∈ ((run empty steps).rebuild lines).1.nodes) :
    (run empty steps).fresh ≤ n.id ↔ Unused steps n.id := by
  have early := room_before room (List.prefix_append steps _)
  refine ⟨unused_of_fresh_le early, fun unused => ?_⟩
  have sound := sound_run early
  have room := room_of_rebuild room
  refine (sound.fresh_le_id_iff balanced room hn).mpr (Node.isNew_iff.mpr fun m hm same => ?_)
  have kept : n.id = m.id := sound.id_eq_of_name_eq balanced room hm hn same
  exact not_unused_of_mem_lastScan (known_run steps ▸ hm) (kept ▸ unused)

/-- While the brackets do not match, rebuilds change nothing but that. -/
theorem exists_run_eq_of_not_balanced {detour : List (List Line)}
    (h : ∀ lines ∈ detour, Bracket.isBalanced lines = false) (o : Outline) :
    ∃ balanced, o.run (detour.map .rebuild) = { o with balanced } := by
  induction detour generalizing o with
  | nil => exact ⟨o.balanced, rfl⟩
  | cons lines detour ih =>
    obtain ⟨broken, rest⟩ := List.forall_mem_cons.mp h
    obtain ⟨balanced, eq⟩ := ih rest { o with balanced := false }
    refine ⟨balanced, ?_⟩
    rw [List.map_cons, run, List.foldl_cons, apply, o.rebuild_of_not_balanced broken]
    exact eq

/-- Whatever is done, nodes have numbers and names of their own, what is collapsed is a node of the
last scan, and no number is given out a second time. -/
theorem runs_stay_consistent (steps : List Step)
    (room : (mintedOver empty steps).length < Node.idLimit) :
    let o := run empty steps
    (o.nodes.map Node.id).Nodup ∧
    (o.nodes.map fun n => (n.key, n.occurrence)).Nodup ∧
    (o.nodes.Pairwise fun m n => m.start < n.start) ∧
    (∀ key, (o.nodes.filter (·.key == key)).map Node.occurrence =
      List.range (o.nodes.filter (·.key == key)).length) ∧
    (∀ id ∈ o.collapsed, ∃ n ∈ lastScan steps, n.id = id) ∧
    (o.balanced → o.nodes = lastScan steps ∧ o.collapsedCount = o.collapsedNodes.length) ∧
    (o.balanced = false → o.nodes = [] ∧ ∀ line, o.isLineHidden line = false) ∧
    ∀ before lines, before ++ [.rebuild lines] <+: steps →
      ∀ id ∈ ((run empty before).rebuild lines).2.minted, Unused before id := by
  intro o
  have sound : o.Sound := sound_run room
  have live := nodes_sublist_known o
  refine ⟨sound.ids.sublist (live.map _), sound.names.sublist (live.map _),
    (sound.led.sublist live).imp And.left, sound.nodes_counted, ?_, ?_, ?_, ?_⟩
  · exact known_run steps ▸ sound.live
  · intro balanced
    exact ⟨(nodes_eq_known balanced).trans (known_run steps), sound.collapsedCount_eq balanced⟩
  · intro broken
    have none : o.nodes = [] := if_neg (by simp [broken])
    exact ⟨none, fun line => by simp [isLineHidden, collapsedNodes, none]⟩
  · intro before lines there id minted
    have room := room_before room there
    have early := room_before room (List.prefix_append before _)
    refine unused_of_fresh_le early ?_
    have numbers := ((sound_run early).rebuild (room_of_rebuild room)).2.1
    exact (List.mem_range'_1.mp (numbers ▸ minted)).1

def namedList : List Line := [['{'], ['"', 'a', '"', ':', '['], [']'], ['}']]

theorem runs_stay_consistent_namedList :
    let before : List Step := [.rebuild namedList, .collapse 1, .rebuild [['{']]]
    let steps : List Step := before ++ [.rebuild (['['] :: namedList ++ [[']']])]
    (mintedOver empty steps).length = 3 ∧ (run empty before).nodes = [] ∧
      (run empty steps).nodes.map Node.id = [0, 2, 1] ∧ (run empty steps).collapsed = [1] ∧
      (∃ n ∈ lastScan steps, n.id = 1) ∧ Unused before 2 := by
  intro before steps
  have room : (mintedOver empty steps).length < Node.idLimit := by decide
  obtain ⟨-, -, -, -, live, -, -, fresh⟩ := runs_stay_consistent steps room
  have collapsed : (run empty steps).collapsed = [1] := by decide
  refine ⟨by decide, by decide, by decide, collapsed, ?_, ?_⟩
  · exact live 1 (collapsed ▸ List.mem_singleton_self 1)
  · exact fresh before _ List.prefix_rfl 2 (by decide)

/-- A rebuild keeps the numbers of the nodes that it finds under a known name and whether they are
collapsed, and gives every other node a number that was never used. -/
theorem rebuild_keeps_known_nodes (steps : List Step) (lines : List Line)
    (balanced : Bracket.isBalanced lines)
    (whole : (mintedOver empty (steps ++ [.rebuild lines])).length < Node.idLimit) :
    let o := run empty steps
    let after := (o.rebuild lines).1
    let outcome := (o.rebuild lines).2
    (∀ n ∈ after.nodes, ∀ m ∈ lastScan steps, m.key = n.key → m.occurrence = n.occurrence →
      n.id = m.id ∧ after.isCollapsed n.id = o.isCollapsed m.id) ∧
    (∀ n ∈ after.nodes, (∀ m ∈ lastScan steps, m.key = n.key → m.occurrence ≠ n.occurrence) →
      Unused steps n.id ∧ after.isCollapsed n.id = false) ∧
    outcome.dropped.Nodup ∧
    (∀ id, id ∈ outcome.dropped ↔ (∃ m ∈ lastScan steps, m.id = id) ∧ after.node? id = none) ∧
    (after.nodes.Pairwise fun m n => m.start < n.start) ∧
    outcome.minted.Sublist (after.nodes.map Node.id) ∧
    (∀ id, id ∈ outcome.minted ↔ (∃ n ∈ after.nodes, n.id = id) ∧ Unused steps id) ∧
    ∀ detour : List (List Line), (∀ broken ∈ detour, Bracket.isBalanced broken = false) →
      (o.run (detour.map .rebuild)).rebuild lines = o.rebuild lines := by
  intro o after outcome
  have early := room_before whole (List.prefix_append steps _)
  have sound : o.Sound := sound_run early
  have room := room_of_rebuild whole
  have known : o.known = lastScan steps := known_run steps
  refine ⟨?_, ?_, ?_, ?_, ?_, ?_, ?_, ?_⟩
  · intro n hn m hm key occurrence
    have same : n.id = m.id :=
      sound.id_eq_of_name_eq balanced room (known ▸ hm) hn (Prod.ext key occurrence)
    exact ⟨same, (isCollapsed_rebuild balanced hn).trans (congrArg o.isCollapsed same)⟩
  · intro n hn unnamed
    have new : n.isNew o.known := Node.isNew_iff.mpr fun m hm same =>
      unnamed m (known ▸ hm) (congrArg Prod.fst same) (congrArg Prod.snd same)
    have late := (sound.fresh_le_id_iff balanced room hn).mpr new
    exact ⟨unused_of_fresh_le early late, sound.isCollapsed_of_isNew balanced room hn new⟩
  · exact o.dropped_of_balanced balanced ▸ sound.ids.filter _
  · intro id
    exact known ▸ mem_dropped_iff balanced
  · exact (o.leads_nodes_rebuild lines).imp And.left
  · exact o.minted_of_balanced balanced ▸ List.filter_sublist.map _
  · intro id
    rw [sound.mem_minted_iff balanced room]
    refine and_congr_right fun ⟨n, hn, same⟩ => ?_
    exact same ▸ fresh_le_iff_unused balanced whole hn
  · intro detour broken
    obtain ⟨flag, eq⟩ := exists_run_eq_of_not_balanced broken o
    rw [eq]
    rfl

theorem rebuild_keeps_known_nodes_namedList :
    let steps : List Step := [.rebuild namedList, .collapse 1, .rebuild [['{']]]
    let lines : List Line := ['['] :: namedList ++ [[']']]
    Bracket.isBalanced lines ∧ (mintedOver empty (steps ++ [.rebuild lines])).length = 3 ∧
      ((run empty steps).rebuild lines).1.nodes.map Node.id = [0, 2, 1] ∧
      ((run empty steps).rebuild lines).1.isCollapsed 1 ∧ Unused steps 2 := by
  intro steps lines
  have room : (mintedOver empty (steps ++ [.rebuild lines])).length < Node.idLimit := by decide
  obtain ⟨-, -, -, -, -, -, minted, -⟩ :=
    rebuild_keeps_known_nodes steps lines (by decide) room
  refine ⟨by decide, by decide, by decide, by decide, ((minted 2).mp ?_).2⟩
  have last : ((run empty steps).rebuild lines).2.minted = [2] := by decide
  exact last ▸ List.mem_singleton_self 2

end Outline

end FeatureText
