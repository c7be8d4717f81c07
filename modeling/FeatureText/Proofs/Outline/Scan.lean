import FeatureText.Proofs.Outline.Forest
import FeatureText.Proofs.Outline.Refold

/-! The nodes that a scan of the lines finds. A rebuild gives each of them a number, known or fresh,
and changes nothing else about it; so a second rebuild from the same lines finds them all again. -/
namespace FeatureText

/-- The spans of several lines that a document has, in the order of their opening brackets; none
while the brackets do not match. -/
def Outline.scan (lines : List Line) : List Entry :=
  ((Tree.forest? lines).map (Tree.entriesOfForest 0)).getD []

def Outline.paths (lines : List Line) : List (Span × List Span) :=
  ((Tree.forest? lines).map (Tree.pathsOfForest [])).getD []

theorem Outline.map_entryOf_paths (lines : List Line) :
    (paths lines).map Tree.entryOf = scan lines := by
  rw [paths, scan]
  cases Tree.forest? lines with
  | none => rfl
  | some forest => exact Tree.map_pathsOfForest forest []

theorem Outline.trail_paths (lines : List Line) : Tree.Trail [] (paths lines) := by
  rw [paths]
  cases Tree.forest? lines with
  | none => trivial
  | some forest =>
    have trail : Tree.Trail [] (Tree.pathsOfForest [] forest ++ []) :=
      Tree.trail_pathsOfForest forest List.suffix_rfl fun _ _ => trivial
    rwa [List.append_nil] at trail

theorem Outline.leads_paths (lines : List Line) :
    (paths lines).Pairwise fun p q => p.1.Leads q.1 := by
  rw [paths]
  cases found : Tree.forest? lines with
  | none => exact .nil
  | some forest => exact Tree.leads_pathsOfForest (Tree.ordered_of_forest? found) []

theorem Outline.exists_forest_of_mem_paths {lines : List Line} {path : Span × List Span}
    (h : path ∈ paths lines) :
    ∃ forest, Tree.forest? lines = some forest ∧ paths lines = Tree.pathsOfForest [] forest := by
  unfold paths at h ⊢
  cases found : Tree.forest? lines with
  | none => rw [found] at h; cases h
  | some forest => exact ⟨forest, rfl, rfl⟩

/-- No entry lies deeper than the ones before it make room for. -/
def Entry.Climb : Nat → List Entry → Prop
  | _, [] => True
  | height, e :: rest => e.depth ≤ height ∧ Entry.Climb (e.depth + 1) rest

open Entry

theorem Tree.Trail.climb {before : List Span} {paths : List (Span × List Span)}
    (h : Trail before paths) : Climb before.length (paths.map entryOf) := by
  induction paths generalizing before with
  | nil => trivial
  | cons path rest ih => exact ⟨h.1.length_le, ih h.2⟩

theorem Outline.climb_scan (lines : List Line) : Climb 0 (scan lines) :=
  map_entryOf_paths lines ▸ (trail_paths lines).climb

namespace Node

def span (n : Node) : Span := ⟨n.key, n.bracket, n.start, n.stop⟩

/-- What a scan finds of a node: all but its number and the numbers around it. -/
def entry (n : Node) : Entry := ⟨n.span, n.depth⟩

def around (path : List NodeId) (depth : Nat) : List NodeId := path.drop (path.length - depth)

theorem length_around {path : List NodeId} {depth : Nat} (h : depth ≤ path.length) :
    (around path depth).length = depth := by
  rw [around, List.length_drop]
  omega

variable {known : List Node} {fresh : NodeId} {path : List NodeId} {keys : List Text}

theorem exists_ofEntries_cons (known : List Node) (fresh : NodeId) (path : List NodeId)
    (keys : List Text) (e : Entry) (rest : List Entry) :
    ∃ id next, (ofEntries known fresh path keys (e :: rest)).1 =
      ofEntry id (keys.count e.span.key) (around path e.depth) e ::
        (ofEntries known next (id :: around path e.depth) (e.span.key :: keys) rest).1 := by
  simp only [ofEntries]
  split
  · next old _ => exact ⟨old.id, fresh, rfl⟩
  · exact ⟨fresh, _, rfl⟩

theorem map_entry_ofEntries {entries : List Entry} (climb : Climb path.length entries) :
    (ofEntries known fresh path keys entries).1.map entry = entries := by
  induction entries generalizing fresh path keys with
  | nil => rfl
  | cons e rest ih =>
    obtain ⟨room, climb⟩ := climb
    obtain ⟨id, next, eq⟩ := exists_ofEntries_cons known fresh path keys e rest
    have depth := length_around room
    rw [eq, List.map_cons, ih (by rwa [List.length_cons, depth])]
    simp [entry, span, ofEntry, Node.depth, depth]

theorem count_le_occurrence {entries : List Entry} {n : Node}
    (h : n ∈ (ofEntries known fresh path keys entries).1) : keys.count n.key ≤ n.occurrence := by
  induction entries generalizing fresh path keys with
  | nil => cases h
  | cons e rest ih =>
    obtain ⟨id, next, eq⟩ := exists_ofEntries_cons known fresh path keys e rest
    rw [eq] at h
    rcases List.mem_cons.mp h with rfl | h
    · exact Nat.le_refl _
    · exact Nat.le_trans List.count_le_count_cons (ih h)

theorem find?_ofEntries {entries : List Entry} {n : Node}
    (h : n ∈ (ofEntries known fresh path keys entries).1) :
    (ofEntries known fresh path keys entries).1.find? (isKnownAs n.key n.occurrence) = some n := by
  induction entries generalizing fresh path keys with
  | nil => cases h
  | cons e rest ih =>
    obtain ⟨id, next, eq⟩ := exists_ofEntries_cons known fresh path keys e rest
    rw [eq] at h ⊢
    rcases List.mem_cons.mp h with rfl | h
    · exact List.find?_cons_of_pos (by simp [isKnownAs])
    · rw [List.find?_cons_of_neg, ih h]
      have later := count_le_occurrence h
      intro same
      obtain ⟨key, occurrence⟩ := Bool.and_eq_true_iff.mp same
      rw [← beq_iff_eq.mp key, ← beq_iff_eq.mp occurrence] at later
      simp only [ofEntry, List.count_cons_self] at later
      omega

theorem ofEntries_of_known {again : List Node} {entries : List Entry}
    (h : ∀ n ∈ (ofEntries known fresh path keys entries).1,
      again.find? (isKnownAs n.key n.occurrence) = some n) (unused : NodeId) :
    (ofEntries again unused path keys entries).1 = (ofEntries known fresh path keys entries).1 := by
  induction entries generalizing fresh path keys with
  | nil => rfl
  | cons e rest ih =>
    obtain ⟨id, next, eq⟩ := exists_ofEntries_cons known fresh path keys e rest
    rw [eq, List.forall_mem_cons] at h
    have found : again.find? (isKnownAs e.span.key (keys.count e.span.key)) =
        some (ofEntry id (keys.count e.span.key) (around path e.depth) e) := h.1
    rw [eq, ← ih h.2]
    simp only [ofEntries, found]
    rfl

end Node

namespace Outline

theorem map_entry_nodes_rebuild (o : Outline) (lines : List Line) :
    (o.rebuild lines).1.nodes.map Node.entry = scan lines := by
  have climb := climb_scan lines
  rw [rebuild]
  unfold scan at climb ⊢
  cases found : Tree.forest? lines with
  | none => rfl
  | some forest =>
    rw [found] at climb
    exact Node.map_entry_ofEntries climb

theorem map_span_nodes_rebuild (o : Outline) (lines : List Line) :
    (o.rebuild lines).1.nodes.map Node.span = (paths lines).map Prod.fst := by
  have entries : ((o.rebuild lines).1.nodes.map Node.entry).map Entry.span =
      ((paths lines).map Tree.entryOf).map Entry.span := by
    rw [map_entry_nodes_rebuild, map_entryOf_paths]
  rwa [List.map_map, List.map_map] at entries

/-- Nodes come in the order of their opening brackets, and do not overlap. -/
theorem leads_nodes_rebuild (o : Outline) (lines : List Line) :
    (o.rebuild lines).1.nodes.Pairwise fun m n => m.span.Leads n.span := by
  have led := List.pairwise_map.mpr (leads_paths lines)
  rw [← o.map_span_nodes_rebuild lines] at led
  exact List.pairwise_map.mp led

theorem Refolds.nodes {o p : Outline} (h : o.Refolds p) : p.nodes = o.nodes := by
  obtain ⟨collapsed, rfl⟩ := h
  rfl

/-- A rebuild from the lines of the last one finds the same nodes, under the same numbers. -/
theorem nodes_rebuild_of_refolds {o p : Outline} {lines : List Line}
    (h : (o.rebuild lines).1.Refolds p) : (p.rebuild lines).1.nodes = p.nodes := by
  obtain ⟨collapsed, rfl⟩ := h
  unfold rebuild
  cases Tree.forest? lines with
  | none => rfl
  | some forest =>
    exact Node.ofEntries_of_known (fun n hn => Node.find?_ofEntries hn) _

end Outline

end FeatureText
