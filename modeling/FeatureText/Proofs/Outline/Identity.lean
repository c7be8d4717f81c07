import FeatureText.Proofs.Outline.Scan
import Mathlib.Data.List.Nodup

/-! The numbers of nodes. A node that was known keeps its number, any other takes the next fresh
one, and so no two nodes have the same number or the same key and occurrence. -/
namespace FeatureText

namespace Node

/-- What a node is known again by. -/
def name (n : Node) : Text × Nat := (n.key, n.occurrence)

theorem isKnownAs_iff {m n : Node} : m.isKnownAs n.key n.occurrence ↔ m.name = n.name := by
  simp [isKnownAs, name]

/-- No node has been known under the same name. -/
def isNew (known : List Node) (n : Node) : Bool :=
  !known.any (isKnownAs n.key n.occurrence)

theorem isNew_iff {known : List Node} {n : Node} :
    n.isNew known ↔ ∀ m ∈ known, m.name ≠ n.name := by
  simp [isNew, isKnownAs, name]

variable {known : List Node} {fresh : NodeId} {path : List NodeId} {keys : List Text}
variable {entries : List Entry}

theorem pairwise_occurrence_ofEntries :
    (ofEntries known fresh path keys entries).1.Pairwise fun m n =>
      m.key = n.key → m.occurrence < n.occurrence := by
  induction entries generalizing fresh path keys with
  | nil => exact .nil
  | cons e rest ih =>
    obtain ⟨id, next, eq⟩ := exists_ofEntries_cons known fresh path keys e rest
    rw [eq]
    refine List.pairwise_cons.mpr ⟨fun n hn same => ?_, ih⟩
    have counted := count_le_occurrence hn
    rw [← same] at counted
    exact Nat.lt_of_lt_of_le (by simp [ofEntry]) counted

theorem map_occurrence_ofEntries (key : Text) :
    ((ofEntries known fresh path keys entries).1.filter (·.key == key)).map occurrence =
      List.range' (keys.count key)
        ((ofEntries known fresh path keys entries).1.filter (·.key == key)).length := by
  induction entries generalizing fresh path keys with
  | nil => rfl
  | cons e rest ih =>
    obtain ⟨id, next, eq⟩ := exists_ofEntries_cons known fresh path keys e rest
    rw [eq]
    by_cases same : e.span.key = key
    · rw [List.filter_cons_of_pos (by simpa [ofEntry] using same), List.map_cons, ih,
        List.length_cons, List.range'_succ, ← same, List.count_cons_self]
      rfl
    · rw [List.filter_cons_of_neg (by simpa [ofEntry] using same), ih,
        List.count_cons_of_ne same]

theorem nodup_name_ofEntries :
    ((ofEntries known fresh path keys entries).1.map name).Nodup := by
  refine List.pairwise_map.mpr (pairwise_occurrence_ofEntries.imp fun {m n} counted same => ?_)
  obtain ⟨key, occurrence⟩ := Prod.mk.inj same
  exact absurd occurrence (Nat.ne_of_lt (counted key))

/-- A node that is known keeps its number. -/
theorem id_eq_of_find?_eq_some {n old : Node}
    (h : n ∈ (ofEntries known fresh path keys entries).1)
    (found : known.find? (isKnownAs n.key n.occurrence) = some old) : n.id = old.id := by
  induction entries generalizing fresh path keys with
  | nil => cases h
  | cons e rest ih =>
    simp only [ofEntries] at h
    split at h
    · next other there =>
      rcases List.mem_cons.mp h with rfl | h
      · have same : some other = some old := there.symm.trans found
        rw [← Option.some.inj same]
        rfl
      · exact ih h
    · next none =>
      rcases List.mem_cons.mp h with rfl | h
      · cases none.symm.trans found
      · exact ih h

/-- New nodes take fresh numbers, one after the other. -/
theorem fresh_ofEntries {fresh next : Nat} {nodes : List Node}
    (h : ofEntries known fresh path keys entries = (nodes, next))
    (room : fresh + (nodes.filter (isNew known)).length < idLimit) :
    (nodes.filter (isNew known)).map id =
        List.range' fresh (nodes.filter (isNew known)).length ∧
      next = fresh + (nodes.filter (isNew known)).length := by
  induction entries generalizing fresh path keys nodes with
  | nil =>
    cases h
    exact ⟨rfl, rfl⟩
  | cons e rest ih =>
    cases found : known.find? (isKnownAs e.span.key (keys.count e.span.key)) with
    | some old =>
      simp only [ofEntries, found, Prod.mk.injEq] at h
      obtain ⟨rfl, rfl⟩ := h
      have again :
          ¬(ofEntry old.id (keys.count e.span.key) (around path e.depth) e).isNew known := by
        simp only [isNew, Bool.not_eq_true', Bool.not_eq_false, List.any_eq_true]
        exact ⟨old, List.mem_of_find?_eq_some found, List.find?_some found⟩
      rw [around] at again
      rw [List.filter_cons_of_neg again] at room ⊢
      exact ih rfl room
    | none =>
      simp only [ofEntries, found, Prod.mk.injEq] at h
      obtain ⟨rfl, rfl⟩ := h
      have new : (ofEntry fresh (keys.count e.span.key) (around path e.depth) e).isNew known := by
        simp only [isNew, Bool.not_eq_true', List.any_eq_false]
        exact List.find?_eq_none.mp found
      rw [around] at new
      rw [List.filter_cons_of_pos new, List.length_cons] at room ⊢
      have small : (fresh + 1) % idLimit = fresh + 1 := Nat.mod_eq_of_lt (by omega)
      obtain ⟨numbers, last⟩ := ih rfl (by omega)
      rw [List.map_cons, List.range'_succ, numbers, last, small]
      exact ⟨rfl, by omega⟩

/-- A node has the number of the node that was known under its name, or a fresh one. -/
theorem known_or_fresh {fresh next : Nat} {nodes : List Node} {n : Node}
    (h : ofEntries known fresh path keys entries = (nodes, next))
    (room : fresh + (nodes.filter (isNew known)).length < idLimit) (hn : n ∈ nodes) :
    (∃ old ∈ known, old.name = n.name ∧ n.id = old.id) ∨
      n ∈ nodes.filter (isNew known) ∧ fresh ≤ n.id ∧ n.id < next := by
  by_cases new : n.isNew known
  · have there := List.mem_filter.mpr ⟨hn, new⟩
    obtain ⟨numbers, last⟩ := fresh_ofEntries h room
    have number : n.id ∈ List.range' fresh (nodes.filter (isNew known)).length :=
      numbers ▸ List.mem_map_of_mem there
    have bounds := List.mem_range'_1.mp number
    exact .inr ⟨there, bounds.1, last ▸ bounds.2⟩
  · cases found : known.find? (isKnownAs n.key n.occurrence) with
    | none => exact absurd (isNew_iff.mpr fun m hm same =>
        List.find?_eq_none.mp found m hm (isKnownAs_iff.mpr same)) new
    | some old =>
      refine .inl ⟨old, List.mem_of_find?_eq_some found, ?_, ?_⟩
      · exact isKnownAs_iff.mp (List.find?_some found)
      · have there : n ∈ (ofEntries known fresh path keys entries).1 := by rwa [h]
        exact id_eq_of_find?_eq_some there found

theorem nodup_id_ofEntries {fresh next : Nat} {nodes : List Node}
    (h : ofEntries known fresh path keys entries = (nodes, next))
    (room : fresh + (nodes.filter (isNew known)).length < idLimit)
    (distinct : (known.map id).Nodup) (below : ∀ m ∈ known, m.id < fresh) :
    (nodes.map id).Nodup := by
  have names : (nodes.map name).Nodup := by
    have all : ((ofEntries known fresh path keys entries).1.map name).Nodup :=
      nodup_name_ofEntries
    rwa [h] at all
  have new : ((nodes.filter (isNew known)).map id).Nodup :=
    (fresh_ofEntries h room).1 ▸ List.nodup_range'
  refine List.Nodup.map_on (fun m hm n hn same => ?_) (List.Nodup.of_map name names)
  -- Known numbers are below the fresh ones, so a known and a new node never share one.
  rcases known_or_fresh h room hm with ⟨a, ha, na, ia⟩ | ⟨hm, lm, -⟩ <;>
    rcases known_or_fresh h room hn with ⟨b, hb, nb, ib⟩ | ⟨hn, ln, -⟩
  · have known : a = b := List.inj_on_of_nodup_map distinct ha hb (ia.symm.trans (same.trans ib))
    subst known
    exact List.inj_on_of_nodup_map names hm hn (na.symm.trans nb)
  · exact absurd (same ▸ ia ▸ below a ha) (Nat.not_lt.mpr ln)
  · exact absurd (same ▸ ib ▸ below b hb) (Nat.not_lt.mpr lm)
  · exact List.inj_on_of_nodup_map new hm hn same

end Node

namespace Outline

variable {o p : Outline} {lines : List Line}

def numbered (o : Outline) (lines : List Line) : List Node × NodeId :=
  Node.ofEntries o.known o.fresh [] [] (scan lines)

theorem rebuild_of_balanced (o : Outline) (balanced : Bracket.isBalanced lines) :
    o.rebuild lines =
      (⟨(o.numbered lines).1, true, (o.numbered lines).2,
          o.collapsed.filter (((o.numbered lines).1.map Node.id).contains ·)⟩,
        ⟨true, (o.known.map Node.id).filter (!((o.numbered lines).1.map Node.id).contains ·),
          ((o.numbered lines).1.filter (Node.isNew o.known)).map Node.id⟩) := by
  rw [← Tree.isSome_forest?] at balanced
  obtain ⟨forest, found⟩ := Option.isSome_iff_exists.mp balanced
  simp only [rebuild, numbered, scan, found]
  rfl

theorem rebuild_of_not_balanced (o : Outline) (broken : Bracket.isBalanced lines = false) :
    o.rebuild lines = ({ o with balanced := false }, ⟨false, [], []⟩) := by
  rw [← Tree.isSome_forest?, Option.isSome_eq_false_iff, Option.isNone_iff_eq_none] at broken
  rw [rebuild, broken]

/-- What is known of the nodes fits together, whatever was done before. -/
structure Sound (o : Outline) : Prop where
  names : (o.known.map Node.name).Nodup
  ids : (o.known.map Node.id).Nodup
  /-- Numbers from the next fresh one on are not in use. -/
  below : ∀ n ∈ o.known, n.id < o.fresh
  counted : ∀ key, (o.known.filter (·.key == key)).map Node.occurrence =
    List.range (o.known.filter (·.key == key)).length
  led : o.known.Pairwise fun m n => m.span.Leads n.span
  once : o.collapsed.Nodup
  live : ∀ id ∈ o.collapsed, ∃ n ∈ o.known, n.id = id

theorem sound_empty : Sound empty where
  names := .nil
  ids := .nil
  below := List.forall_mem_nil _
  counted _ := rfl
  led := .nil
  once := .nil
  live := List.forall_mem_nil _

theorem nodes_rebuild_of_balanced (o : Outline) (balanced : Bracket.isBalanced lines) :
    (o.rebuild lines).1.nodes = (o.numbered lines).1 := by
  rw [o.rebuild_of_balanced balanced]
  rfl

theorem minted_of_balanced (o : Outline) (balanced : Bracket.isBalanced lines) :
    (o.rebuild lines).2.minted =
      ((o.rebuild lines).1.nodes.filter (Node.isNew o.known)).map Node.id := by
  rw [o.nodes_rebuild_of_balanced balanced, o.rebuild_of_balanced balanced]

theorem dropped_of_balanced (o : Outline) (balanced : Bracket.isBalanced lines) :
    (o.rebuild lines).2.dropped =
      (o.known.map Node.id).filter (!((o.rebuild lines).1.nodes.map Node.id).contains ·) := by
  rw [o.nodes_rebuild_of_balanced balanced, o.rebuild_of_balanced balanced]

theorem mem_dropped_iff (balanced : Bracket.isBalanced lines) {id : NodeId} :
    id ∈ (o.rebuild lines).2.dropped ↔
      (∃ m ∈ o.known, m.id = id) ∧ (o.rebuild lines).1.node? id = none := by
  rw [o.dropped_of_balanced balanced, List.mem_filter, List.mem_map]
  refine and_congr_right fun _ => ?_
  simp [node?]

theorem isCollapsed_rebuild (balanced : Bracket.isBalanced lines) {n : Node}
    (hn : n ∈ (o.rebuild lines).1.nodes) :
    (o.rebuild lines).1.isCollapsed n.id = o.isCollapsed n.id := by
  have live : n.id ∈ (o.numbered lines).1.map Node.id :=
    List.mem_map_of_mem (o.nodes_rebuild_of_balanced balanced ▸ hn)
  rw [o.rebuild_of_balanced balanced, Bool.eq_iff_iff]
  simp only [isCollapsed, List.contains_iff_mem, List.mem_filter, live, and_true]

theorem nodes_eq_known (h : o.balanced) : o.nodes = o.known := if_pos h

theorem nodes_sublist_known (o : Outline) : o.nodes.Sublist o.known := by
  unfold nodes
  split
  · exact .refl _
  · exact List.nil_sublist _

theorem mem_known_of_mem_nodes {n : Node} (h : n ∈ o.nodes) : n ∈ o.known :=
  o.nodes_sublist_known.subset h

theorem exists_of_isSome_node? {id : NodeId} (h : (o.node? id).isSome) :
    ∃ n ∈ o.nodes, n.id = id := by
  obtain ⟨n, hn, same⟩ := List.find?_isSome.mp h
  exact ⟨n, hn, beq_iff_eq.mp same⟩

namespace Sound

/-- A rebuild numbers the nodes that are new from the next fresh number on. -/
theorem rebuild (h : o.Sound)
    (room : o.fresh + (o.rebuild lines).2.minted.length < Node.idLimit) :
    (o.rebuild lines).1.Sound ∧
      (o.rebuild lines).2.minted = List.range' o.fresh (o.rebuild lines).2.minted.length ∧
      (o.rebuild lines).1.fresh = o.fresh + (o.rebuild lines).2.minted.length := by
  cases balanced : Bracket.isBalanced lines with
  | false =>
    rw [o.rebuild_of_not_balanced balanced]
    exact ⟨{ h with }, rfl, rfl⟩
  | true =>
    have led := o.leads_nodes_rebuild lines
    rw [o.rebuild_of_balanced balanced] at room led ⊢
    rw [List.length_map] at room ⊢
    have fresh := Node.fresh_ofEntries rfl room
    refine ⟨⟨Node.nodup_name_ofEntries, ?_, fun n hn => ?_, fun key => ?_, led, ?_,
      fun id hi => ?_⟩, fresh.1, fresh.2⟩
    · exact Node.nodup_id_ofEntries rfl room h.ids h.below
    · rcases Node.known_or_fresh rfl room hn with ⟨old, ho, -, same⟩ | ⟨-, -, small⟩
      · have small : n.id < o.fresh := same ▸ h.below old ho
        exact fresh.2 ▸ Nat.lt_add_right _ small
      · exact small
    · rw [List.range_eq_range']
      exact Node.map_occurrence_ofEntries key
    · exact h.once.filter _
    · obtain ⟨-, there⟩ := List.mem_filter.mp hi
      exact List.mem_map.mp (List.contains_iff_mem.mp there)

theorem nodes_counted (h : o.Sound) (key : Text) :
    (o.nodes.filter (·.key == key)).map Node.occurrence =
      List.range (o.nodes.filter (·.key == key)).length := by
  unfold nodes
  split
  · exact h.counted key
  · rfl

theorem collapsedCount_eq (h : o.Sound) (balanced : o.balanced) :
    o.collapsedCount = o.collapsedNodes.length := by
  have nodes := nodes_eq_known balanced
  have distinct : (o.collapsedNodes.map Node.id).Nodup := by
    rw [collapsedNodes, nodes]
    exact h.ids.sublist (List.filter_sublist.map _)
  have same : o.collapsed.Perm (o.collapsedNodes.map Node.id) := by
    refine (List.perm_ext_iff_of_nodup h.once distinct).mpr fun id => ⟨fun hi => ?_, fun hi => ?_⟩
    · obtain ⟨n, hn, rfl⟩ := h.live id hi
      refine List.mem_map_of_mem (List.mem_filter.mpr ⟨nodes ▸ hn, ?_⟩)
      exact List.contains_iff_mem.mpr hi
    · obtain ⟨n, hn, rfl⟩ := List.mem_map.mp hi
      exact List.contains_iff_mem.mp (List.mem_filter.mp hn).2
  rw [collapsedCount, same.length_eq, List.length_map]

section Rebuild

variable (h : o.Sound) (balanced : Bracket.isBalanced lines)
variable (room : o.fresh + (o.rebuild lines).2.minted.length < Node.idLimit)

include h balanced room

theorem id_eq_of_name_eq {m n : Node} (hm : m ∈ o.known) (hn : n ∈ (o.rebuild lines).1.nodes)
    (same : m.name = n.name) : n.id = m.id := by
  rw [o.nodes_rebuild_of_balanced balanced] at hn
  rw [o.rebuild_of_balanced balanced, List.length_map] at room
  rcases Node.known_or_fresh rfl room hn with ⟨old, ho, again, number⟩ | ⟨new, -⟩
  · rw [number, List.inj_on_of_nodup_map h.names ho hm (again.trans same.symm)]
  · exact absurd same (Node.isNew_iff.mp (List.mem_filter.mp new).2 m hm)

theorem fresh_le_id_iff {n : Node} (hn : n ∈ (o.rebuild lines).1.nodes) :
    o.fresh ≤ n.id ↔ n.isNew o.known := by
  rw [o.nodes_rebuild_of_balanced balanced] at hn
  rw [o.rebuild_of_balanced balanced, List.length_map] at room
  rcases Node.known_or_fresh rfl room hn with ⟨old, ho, again, number⟩ | ⟨new, late, -⟩
  · have early : ¬o.fresh ≤ n.id := Nat.not_le.mpr (number ▸ h.below old ho)
    exact iff_of_false early fun new => Node.isNew_iff.mp new old ho again
  · exact iff_of_true late (List.mem_filter.mp new).2

theorem isCollapsed_of_isNew {n : Node} (hn : n ∈ (o.rebuild lines).1.nodes)
    (new : n.isNew o.known) : (o.rebuild lines).1.isCollapsed n.id = false := by
  rw [isCollapsed_rebuild balanced hn, ← Bool.not_eq_true]
  intro collapsed
  obtain ⟨m, hm, same⟩ := h.live n.id (List.contains_iff_mem.mp collapsed)
  have late := (h.fresh_le_id_iff balanced room hn).mpr new
  exact Nat.not_le.mpr (h.below m hm) (same ▸ late)

theorem mem_minted_iff {id : NodeId} :
    id ∈ (o.rebuild lines).2.minted ↔
      (∃ n ∈ (o.rebuild lines).1.nodes, n.id = id) ∧ o.fresh ≤ id := by
  rw [o.minted_of_balanced balanced, List.mem_map]
  constructor
  · rintro ⟨n, hn, rfl⟩
    obtain ⟨hn, new⟩ := List.mem_filter.mp hn
    exact ⟨⟨n, hn, rfl⟩, (h.fresh_le_id_iff balanced room hn).mpr new⟩
  · rintro ⟨⟨n, hn, rfl⟩, late⟩
    exact ⟨n, List.mem_filter.mpr ⟨hn, (h.fresh_le_id_iff balanced room hn).mp late⟩, rfl⟩

end Rebuild

end Sound

end Outline

end FeatureText
