import FeatureText.Proofs.Outline.Run
import Mathlib.Data.List.Pairwise

/-! How nodes nest. The numbers around a node are those of the nodes whose brackets enclose its own,
the innermost first. -/
namespace FeatureText

namespace Node

variable {known : List Node} {fresh : NodeId} {keys : List Text}

theorem map_ancestors_ofEntries {number : Span → NodeId} {before : List Span}
    {paths : List (Span × List Span)} (trail : Tree.Trail before paths)
    (numbers : ∀ n ∈ (ofEntries known fresh (before.map number) keys
      (paths.map Tree.entryOf)).1, number n.span = n.id) :
    (ofEntries known fresh (before.map number) keys (paths.map Tree.entryOf)).1.map
        (fun n => (n.span, n.ancestors)) =
      paths.map fun path => (path.1, path.2.map number) := by
  induction paths generalizing fresh before keys with
  | nil => rfl
  | cons path paths ih =>
    obtain ⟨suffix, trail⟩ := trail
    have above : around (before.map number) path.2.length = path.2.map number := by
      obtain ⟨inner, rfl⟩ := suffix
      simp [around]
    obtain ⟨id, next, eq⟩ := exists_ofEntries_cons known fresh (before.map number) keys
      (Tree.entryOf path) (paths.map Tree.entryOf)
    rw [List.map_cons, eq] at numbers ⊢
    have first : number path.1 = id := numbers _ List.mem_cons_self
    have onward : id :: around (before.map number) (Tree.entryOf path).depth =
        (path.1 :: path.2).map number := by
      rw [List.map_cons, first]
      exact congrArg (id :: ·) above
    rw [onward] at numbers ⊢
    have rest := ih trail fun n hn => numbers n (List.mem_cons_of_mem _ hn)
    exact congrArg₂ List.cons (Prod.ext rfl above) rest

theorem find?_of_nodup {κ : Type} [DecidableEq κ] {key : Node → κ} {nodes : List Node} {n : Node}
    (distinct : (nodes.map key).Nodup) (hn : n ∈ nodes) :
    nodes.find? (key · == key n) = some n := by
  cases found : nodes.find? (key · == key n) with
  | none => exact absurd (beq_self_eq_true _) (List.find?_eq_none.mp found n hn)
  | some m =>
    have same : key m = key n := by simpa using List.find?_some found
    rw [List.inj_on_of_nodup_map distinct (List.mem_of_find?_eq_some found) hn same]

def numberOf (nodes : List Node) (s : Span) : NodeId :=
  ((nodes.find? (·.span == s)).map id).getD 0

theorem numberOf_span {nodes : List Node} {n : Node} (distinct : (nodes.map span).Nodup)
    (hn : n ∈ nodes) : numberOf nodes n.span = n.id := by
  rw [numberOf, find?_of_nodup distinct hn]
  rfl

end Node

namespace Outline

variable {o : Outline} {lines : List Line} {m n : Node}

theorem mem_brackets_of_mem_nodes (h : n ∈ (o.rebuild lines).1.nodes) :
    (.opening n.bracket, n.start) ∈ Token.brackets lines ∧
      (.closing n.bracket, n.stop) ∈ Token.brackets lines ∧ n.start.line < n.stop.line := by
  have there : n.span ∈ (paths lines).map Prod.fst :=
    o.map_span_nodes_rebuild lines ▸ List.mem_map_of_mem h
  obtain ⟨path, hp, same⟩ := List.mem_map.mp there
  obtain ⟨forest, found, eq⟩ := exists_forest_of_mem_paths hp
  have marks := Tree.mem_marks_of_mem_pathsOfForest (eq ▸ hp)
  rw [Tree.marks_of_forest? found, same] at marks
  exact ⟨marks.1, marks.2.1, of_decide_eq_true marks.2.2⟩

theorem start_lt_stop (h : n ∈ (o.rebuild lines).1.nodes) : n.start < n.stop :=
  .inl (mem_brackets_of_mem_nodes h).2.2

theorem snd_eq_of_mem_paths {path : Span × List Span} (h : path ∈ paths lines) :
    path.2 = Tree.enclosing (paths lines) path.1 := by
  obtain ⟨forest, found, eq⟩ := exists_forest_of_mem_paths h
  rw [eq] at h ⊢
  have all := Tree.snd_eq_of_mem_pathsOfForest (Tree.ordered_of_forest? found) h
  rwa [List.append_nil] at all

def enclosers (o : Outline) (n : Node) : List Node := o.nodes.filter fun m => m.span.Encloses n.span

theorem mem_enclosers_iff : m ∈ o.enclosers n ↔ m ∈ o.nodes ∧ m.span.Encloses n.span := by
  simp [enclosers]

theorem enclosing_paths (o : Outline) (lines : List Line) (n : Node) :
    Tree.enclosing (paths lines) n.span =
      (((o.rebuild lines).1.enclosers n).map Node.span).reverse := by
  rw [Tree.enclosing, ← o.map_span_nodes_rebuild lines, List.filter_map]
  rfl

theorem exists_path_of_mem_nodes (balanced : Bracket.isBalanced lines)
    (h : n ∈ (o.rebuild lines).1.nodes) {number : Span → NodeId}
    (numbers : ∀ m ∈ (o.rebuild lines).1.nodes, number m.span = m.id) :
    ∃ path ∈ paths lines, path.1 = n.span ∧ n.ancestors = path.2.map number := by
  have nodes : (o.rebuild lines).1.nodes =
      (Node.ofEntries o.known o.fresh [] [] ((paths lines).map Tree.entryOf)).1 := by
    rw [o.nodes_rebuild_of_balanced balanced, map_entryOf_paths]
    rfl
  rw [nodes] at h numbers
  have pairs := Node.map_ancestors_ofEntries (trail_paths lines) numbers
  have there := List.mem_map_of_mem (f := fun n => (n.span, n.ancestors)) h
  obtain ⟨path, hp, same⟩ := List.mem_map.mp (pairs ▸ there)
  obtain ⟨span, around⟩ := Prod.mk.inj same
  exact ⟨path, hp, span, around.symm⟩

theorem ancestors_eq (balanced : Bracket.isBalanced lines) (h : n ∈ (o.rebuild lines).1.nodes) :
    n.ancestors = (((o.rebuild lines).1.enclosers n).map Node.id).reverse := by
  have distinct : ((o.rebuild lines).1.nodes.map Node.span).Nodup := by
    refine List.pairwise_map.mpr ((o.leads_nodes_rebuild lines).imp fun leads same => ?_)
    rw [same] at leads
    exact Position.lt_irrefl _ leads.1
  have numbers : ∀ m ∈ (o.rebuild lines).1.nodes, _ := fun _ => Node.numberOf_span distinct
  obtain ⟨path, hp, span, around⟩ := exists_path_of_mem_nodes balanced h numbers
  rw [around, snd_eq_of_mem_paths hp, span, o.enclosing_paths lines, List.map_reverse,
    List.map_map]
  refine congrArg List.reverse (List.map_congr_left fun m hm => ?_)
  exact numbers m (mem_enclosers_iff.mp hm).1

theorem nested_or_apart_of_leads {nodes : List Node}
    (led : nodes.Pairwise fun m n => m.span.Leads n.span) (hm : m ∈ nodes) (hn : n ∈ nodes)
    (different : m ≠ n) :
    m.span.Encloses n.span ∨ n.span.Encloses m.span ∨ m.stop < n.start ∨ n.stop < m.start := by
  have symm : Std.Symm fun m n : Node => m.span.Leads n.span ∨ n.span.Leads m.span :=
    ⟨fun _ _ => Or.symm⟩
  have either : nodes.Pairwise fun m n => m.span.Leads n.span ∨ n.span.Leads m.span :=
    led.imp .inl
  rcases either.forall hm hn different with ⟨-, outside | before⟩ | ⟨-, inside | behind⟩
  · exact .inl outside
  · exact .inr (.inr (.inl before))
  · exact .inr (.inl inside)
  · exact .inr (.inr (.inr behind))

theorem nested_or_apart (hm : m ∈ (o.rebuild lines).1.nodes) (hn : n ∈ (o.rebuild lines).1.nodes)
    (different : m ≠ n) :
    m.span.Encloses n.span ∨ n.span.Encloses m.span ∨ m.stop < n.start ∨ n.stop < m.start :=
  nested_or_apart_of_leads (o.leads_nodes_rebuild lines) hm hn different

theorem enclosers_eq (h : n ∈ (o.rebuild lines).1.nodes) :
    (o.rebuild lines).1.enclosers n = [] ∨ ∃ p ∈ (o.rebuild lines).1.nodes,
      (o.rebuild lines).1.enclosers n = (o.rebuild lines).1.enclosers p ++ [p] := by
  have led := (o.leads_nodes_rebuild lines).filter fun m => m.span.Encloses n.span
  rcases List.eq_nil_or_concat' ((o.rebuild lines).1.enclosers n) with none | ⟨outer, p, eq⟩
  · exact .inl none
  have all : ∀ m ∈ outer ++ [p], m ∈ (o.rebuild lines).1.nodes ∧ m.span.Encloses n.span :=
    fun m hm => mem_enclosers_iff.mp (eq ▸ hm)
  have inner := all p (List.mem_append_right _ (List.mem_singleton_self p))
  have outside : ∀ m ∈ outer, m.span.Encloses p.span := by
    intro m hm
    rw [← enclosers, eq, List.pairwise_append] at led
    rcases (led.2.2 m hm p (List.mem_singleton_self p)).2 with encloses | apart
    · exact encloses
    · -- Both enclose the node, so the first cannot end before the second begins.
      have around := (all m (List.mem_append_left _ hm)).2
      have early := Position.lt_trans apart (Position.lt_trans inner.2.1 (start_lt_stop h))
      exact absurd (Position.lt_trans early around.2) (Position.lt_irrefl _)
  have kept : (o.rebuild lines).1.enclosers p =
      ((o.rebuild lines).1.enclosers n).filter fun m => m.span.Encloses p.span := by
    rw [enclosers, enclosers, List.filter_filter]
    refine List.filter_congr fun m _ => ?_
    simpa using fun encloses => Span.Encloses.trans encloses inner.2
  refine .inr ⟨p, inner.1, ?_⟩
  rw [kept, eq, List.filter_append, List.filter_eq_self.mpr (by simpa using outside)]
  simp [Span.not_encloses_self]

theorem ancestors_eq_cons (balanced : Bracket.isBalanced lines)
    (hn : n ∈ (o.rebuild lines).1.nodes) (hm : m ∈ (o.rebuild lines).1.nodes)
    (eq : (o.rebuild lines).1.enclosers n = (o.rebuild lines).1.enclosers m ++ [m]) :
    n.ancestors = m.id :: m.ancestors := by
  rw [ancestors_eq balanced hn, ancestors_eq balanced hm, eq]
  simp

/-- The number is that of the innermost node around a node, if there is a node around it. -/
def IsInnermost (o : Outline) (n : Node) : Option NodeId → Prop
  | none => ∀ m ∈ o.nodes, ¬m.span.Encloses n.span
  | some id => ∃ p ∈ o.nodes, p.id = id ∧ p.span.Encloses n.span ∧
      ∀ m ∈ o.nodes, m.span.Encloses n.span → m = p ∨ m.span.Encloses p.span

theorem isInnermost_parent? (balanced : Bracket.isBalanced lines)
    (h : n ∈ (o.rebuild lines).1.nodes) : (o.rebuild lines).1.IsInnermost n n.parent? := by
  rcases enclosers_eq h with none | ⟨p, hp, eq⟩
  · have alone : n.parent? = Option.none := by
      rw [Node.parent?, ancestors_eq balanced h, none]
      rfl
    rw [alone]
    exact fun m hm encloses => List.not_mem_nil (none ▸ mem_enclosers_iff.mpr ⟨hm, encloses⟩)
  · have parent : n.parent? = some p.id := by
      rw [Node.parent?, ancestors_eq_cons balanced h hp eq]
      rfl
    rw [parent]
    have there := eq ▸ List.mem_append_right _ (List.mem_singleton_self p)
    refine ⟨p, hp, rfl, (mem_enclosers_iff.mp there).2, fun m hm encloses => ?_⟩
    have around := eq ▸ mem_enclosers_iff.mpr ⟨hm, encloses⟩
    rcases List.mem_append.mp around with outside | last
    · exact .inr (mem_enclosers_iff.mp outside).2
    · exact .inl (List.mem_singleton.mp last)

/-- The walk from a node to the node around it, and so on, in search of one. -/
inductive Ascends (o : Outline) (target : NodeId) : Option NodeId → Bool → Prop where
  | top : o.Ascends target none false
  | found : o.Ascends target (some target) true
  | up {id : NodeId} {answer : Bool} (other : id ≠ target)
      (rest : o.Ascends target ((o.node? id).bind Node.parent?) answer) :
      o.Ascends target (some id) answer

theorem Ascends.unique {target : NodeId} {at? : Option NodeId} {a b : Bool}
    (h : o.Ascends target at? a) (h' : o.Ascends target at? b) : a = b := by
  induction h with
  | top => cases h'; rfl
  | found =>
    cases h' with
    | found => rfl
    | up other => exact absurd rfl other
  | up other _ ih =>
    cases h' with
    | found => exact absurd rfl other
    | up _ rest => exact ih rest

theorem ascends_isAncestor (balanced : Bracket.isBalanced lines)
    (distinct : ((o.rebuild lines).1.nodes.map Node.id).Nodup)
    (h : n ∈ (o.rebuild lines).1.nodes) (target : NodeId) :
    (o.rebuild lines).1.Ascends target n.parent? (isAncestor target n) := by
  generalize around : (o.rebuild lines).1.enclosers n = nodes
  induction nodes using List.reverseRecOn generalizing n with
  | nil =>
    have none : n.ancestors = [] := by rw [ancestors_eq balanced h, around]; rfl
    rw [Node.parent?, isAncestor, none]
    exact .top
  | append_singleton outer p ih =>
    rcases enclosers_eq h with nil | ⟨q, hq, eq⟩
    · rw [nil] at around
      cases outer <;> cases around
    · obtain ⟨outside, -⟩ := List.append_inj' (eq.symm.trans around) rfl
      have above := ancestors_eq_cons balanced h hq eq
      rw [Node.parent?, isAncestor, above, List.head?_cons]
      by_cases same : q.id = target
      · subst same
        rw [List.contains_cons, beq_self_eq_true, Bool.true_or]
        exact .found
      · have there : (o.rebuild lines).1.node? q.id = some q := Node.find?_of_nodup distinct hq
        have rest := ih hq outside
        rw [List.contains_cons, beq_false_of_ne (Ne.symm same), Bool.false_or]
        exact .up same (by rwa [there])

theorem isAncestor_iff (balanced : Bracket.isBalanced lines)
    (distinct : ((o.rebuild lines).1.nodes.map Node.id).Nodup)
    (hm : m ∈ (o.rebuild lines).1.nodes) (hn : n ∈ (o.rebuild lines).1.nodes) :
    isAncestor m.id n ↔ m.span.Encloses n.span := by
  rw [isAncestor, List.contains_iff_mem, ancestors_eq balanced hn, List.mem_reverse, List.mem_map]
  constructor
  · rintro ⟨other, ho, same⟩
    obtain ⟨ho, encloses⟩ := mem_enclosers_iff.mp ho
    exact List.inj_on_of_nodup_map distinct ho hm same ▸ encloses
  · exact fun encloses => ⟨m, mem_enclosers_iff.mpr ⟨hm, encloses⟩, rfl⟩

/-- The nodes are a forest of brackets that nest, and what is said of a node around them is so. -/
theorem nodes_nest (steps : List Step) (lines : List Line) (balanced : Bracket.isBalanced lines)
    (room : (mintedOver empty (steps ++ [.rebuild lines])).length < Node.idLimit) :
    let o := ((run empty steps).rebuild lines).1
    (o.nodes.Pairwise fun m n => m.start < n.start) ∧
    (∀ n ∈ o.nodes, n.start.line < n.stop.line ∧
      charAt? lines n.start = some n.bracket.opening ∧
      charAt? lines n.stop = some n.bracket.closing) ∧
    (∀ m ∈ o.nodes, ∀ n ∈ o.nodes, m ≠ n →
      m.span.Encloses n.span ∨ n.span.Encloses m.span ∨ m.stop < n.start ∨ n.stop < m.start) ∧
    (∀ n ∈ o.nodes, o.IsInnermost n n.parent?) ∧
    (∀ n ∈ o.nodes, n.depth = o.nodes.countP fun m => m.span.Encloses n.span) ∧
    ∀ m ∈ o.nodes, ∀ n ∈ o.nodes, (isAncestor m.id n ↔ m.span.Encloses n.span) ∧
      ∀ answer, o.Ascends m.id n.parent? answer ↔ answer = isAncestor m.id n := by
  intro o
  have early := room_before room (List.prefix_append steps _)
  have distinct : (o.nodes.map Node.id).Nodup := by
    have sound := ((sound_run early).rebuild (room_of_rebuild room)).1
    exact sound.ids.sublist ((nodes_sublist_known o).map _)
  have led : o.nodes.Pairwise fun m n => m.span.Leads n.span :=
    (run empty steps).leads_nodes_rebuild lines
  refine ⟨led.imp And.left, ?_, ?_, ?_, ?_, ?_⟩
  · intro n hn
    obtain ⟨start, stop, tall⟩ := mem_brackets_of_mem_nodes hn
    exact ⟨tall, Token.charAt?_of_mem_brackets start, Token.charAt?_of_mem_brackets stop⟩
  · exact fun m hm n hn => nested_or_apart hm hn
  · exact fun n hn => isInnermost_parent? balanced hn
  · intro n hn
    rw [Node.depth, ancestors_eq balanced hn, List.length_reverse, List.length_map, enclosers,
      ← List.countP_eq_length_filter]
  · intro m hm n hn
    refine ⟨isAncestor_iff balanced distinct hm hn, fun answer => ⟨fun walk => ?_, fun eq => ?_⟩⟩
    · exact walk.unique (ascends_isAncestor balanced distinct hn m.id)
    · exact eq ▸ ascends_isAncestor balanced distinct hn m.id

theorem nodes_nest_namedList :
    let steps : List Step := [.rebuild [['['], [']']], .collapse 0]
    let o := ((run empty steps).rebuild namedList).1
    Bracket.isBalanced namedList ∧
      (mintedOver empty (steps ++ [.rebuild namedList])).length < Node.idLimit ∧
      o.nodes.map Node.id = [0, 1] ∧ o.nodes.map Node.parent? = [none, some 0] ∧
      ∀ m ∈ o.nodes, ∀ n ∈ o.nodes, o.Ascends m.id n.parent? (isAncestor m.id n) := by
  intro steps o
  have room : (mintedOver empty (steps ++ [.rebuild namedList])).length < Node.idLimit := by
    decide
  obtain ⟨-, -, -, -, -, walks⟩ := nodes_nest steps namedList (by decide) room
  refine ⟨by decide, room, by decide, by decide, fun m hm n hn => ?_⟩
  exact ((walks m hm n hn).2 _).mpr rfl

end Outline

end FeatureText
