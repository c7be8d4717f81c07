import FeatureText.Proofs.Outline.Nesting
import FeatureText.Proofs.Text.Segmentation

/-! What collapsed nodes hide. A node that hides a line with a bracket of another node lies around
that node. So the brackets of the outermost collapsed node at a line are on lines that are shown. -/
namespace FeatureText

namespace Outline

/-- All nodes are several lines long and come in the order in which they begin, without overlap. -/
structure Nests (o : Outline) : Prop where
  tall : ∀ n ∈ o.nodes, n.start.line < n.stop.line
  led : o.nodes.Pairwise fun m n => m.span.Leads n.span

/-- Nothing hides the line. -/
def Shows (o : Outline) (line : Nat) : Prop := ∀ n ∈ o.collapsedNodes, ¬n.hidesLine line

variable {o : Outline} {m n : Node} {line : Nat}

theorem shows_iff : o.Shows line ↔ o.isLineHidden line = false := by
  simp [Shows, isLineHidden]

instance (o : Outline) (line : Nat) : Decidable (o.Shows line) := decidable_of_iff _ shows_iff.symm

theorem hidesLine_iff : n.hidesLine line ↔ n.start.line < line ∧ line < n.stop.line := by
  simp [Node.hidesLine]

theorem Nests.of_refolds {p : Outline} (h : o.Nests) (refolds : o.Refolds p) : p.Nests := by
  obtain ⟨collapsed, rfl⟩ := refolds
  exact ⟨h.tall, h.led⟩

theorem nests_rebuild (o : Outline) (lines : List Line) : (o.rebuild lines).1.Nests :=
  ⟨fun _ hn => (mem_brackets_of_mem_nodes hn).2.2, o.leads_nodes_rebuild lines⟩

theorem shows_zero (o : Outline) : o.Shows 0 := fun _ _ hides =>
  absurd (hidesLine_iff.mp hides).1 (Nat.not_lt_zero _)

theorem hidingNode?_eq_none_iff : o.hidingNode? line = none ↔ o.Shows line := List.find?_eq_none

theorem hides_of_hidingNode? (found : o.hidingNode? line = some n) :
    n.start.line < line ∧ line < n.stop.line := by
  rw [← hidesLine_iff]
  simpa using List.find?_some found

theorem opens_of_collapsedFrom? (found : o.collapsedFrom? line = some n) : n.start.line = line := by
  simpa using List.find?_some found

theorem closes_of_collapsedTo? (found : o.collapsedTo? line = some n) : n.stop.line = line := by
  simpa using List.find?_some found

/-- The place itself while its line is shown, and else the bracket where the outermost collapsed
node that hides the line opens. -/
def shownPlace (o : Outline) (p : Position) : Position :=
  match o.hidingNode? p.line with
  | some n => n.start
  | none => p

theorem shownPlace_eq_self {p : Position} (shown : o.Shows p.line) : o.shownPlace p = p := by
  rw [shownPlace, hidingNode?_eq_none_iff.mpr shown]

namespace Nests

variable (h : o.Nests)

include h

/-- Around a node is every node that hides a line where one of its brackets is. -/
theorem encloses_of_hidesLine (hm : m ∈ o.nodes) (hn : n ∈ o.nodes)
    (hides : m.hidesLine n.start.line ∨ m.hidesLine n.stop.line) : m.span.Encloses n.span := by
  have tall := h.tall n hn
  rw [hidesLine_iff, hidesLine_iff] at hides
  have different : m ≠ n := by
    rintro rfl
    omega
  rcases nested_or_apart_of_leads h.led hm hn different with around | inside | before | behind
  · exact around
  · simp only [Span.Encloses, Position.lt_def, Node.span] at inside
    omega
  · rw [Position.lt_def] at before
    omega
  · rw [Position.lt_def] at behind
    omega

theorem not_choose_of_encloses {choose : Node → Bool}
    (found : o.collapsedNodes.find? choose = some n) (hm : m ∈ o.collapsedNodes)
    (around : m.span.Encloses n.span) : ¬choose m := by
  intro chosen
  have led : o.collapsedNodes.Pairwise fun m n => m.span.Leads n.span := h.led.filter _
  rcases eq_or_rel_of_find? led found hm chosen with rfl | leads
  · exact Span.not_encloses_self _ around
  · -- What comes later begins later, and so does not lie around the node.
    exact Position.lt_irrefl _ (Position.lt_trans leads.1 around.1)

/-- A line with a bracket of the first collapsed node of a kind is shown, if every node that lies
around that node and hides the line is of the kind. -/
theorem shows_of_find? {choose : Node → Bool} (found : o.collapsedNodes.find? choose = some n)
    (bracket : line = n.start.line ∨ line = n.stop.line)
    (kind : ∀ m ∈ o.collapsedNodes, m.start.line ≤ n.start.line → n.stop.line ≤ m.stop.line →
      m.hidesLine line → choose m) : o.Shows line := by
  intro m hm hides
  have hn := List.mem_of_find?_eq_some found
  have around : m.span.Encloses n.span := by
    apply h.encloses_of_hidesLine (List.mem_of_mem_filter hm) (List.mem_of_mem_filter hn)
    rcases bracket with rfl | rfl
    · exact .inl hides
    · exact .inr hides
  refine h.not_choose_of_encloses found hm around ?_
  simp only [Span.Encloses, Position.lt_def, Node.span] at around
  exact kind m hm (by omega) (by omega) hides

theorem shows_of_hidingNode? (found : o.hidingNode? line = some n) :
    o.Shows n.start.line ∧ o.Shows n.stop.line := by
  have inside := hides_of_hidingNode? found
  constructor
  · refine h.shows_of_find? found (.inl rfl) fun m _ start stop _ => ?_
    exact hidesLine_iff.mpr (by omega)
  · refine h.shows_of_find? found (.inr rfl) fun m _ start stop _ => ?_
    exact hidesLine_iff.mpr (by omega)

theorem shows_of_collapsedFrom? (found : o.collapsedFrom? line = some n) (shown : o.Shows line) :
    o.Shows n.stop.line := by
  have opens := opens_of_collapsedFrom? found
  have tall := h.tall n (List.mem_of_mem_filter (List.mem_of_find?_eq_some found))
  refine h.shows_of_find? found (.inr rfl) fun m hm start stop hides => ?_
  have shown := shown m hm
  rw [hidesLine_iff] at shown hides
  simp only [beq_iff_eq]
  omega

theorem shows_of_collapsedTo? (found : o.collapsedTo? line = some n) (shown : o.Shows line) :
    o.Shows n.start.line := by
  have closes := closes_of_collapsedTo? found
  have tall := h.tall n (List.mem_of_mem_filter (List.mem_of_find?_eq_some found))
  refine h.shows_of_find? found (.inl rfl) fun m hm start stop hides => ?_
  have shown := shown m hm
  rw [hidesLine_iff] at shown hides
  simp only [beq_iff_eq]
  omega

end Nests

end Outline

end FeatureText
