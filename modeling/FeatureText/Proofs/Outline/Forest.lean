import FeatureText.Proofs.Bracket.Column

/-! The geometry of a forest. Its brackets, written out in order, are those of the lines; as each
stands behind the one before, spans are either nested or apart. -/
namespace FeatureText

open FeatureText.Bracket

/-- The first span lies around the second one. -/
def Span.Encloses (s t : Span) : Prop := s.start < t.start ∧ t.stop < s.stop

instance (s t : Span) : Decidable (s.Encloses t) := inferInstanceAs (Decidable (_ ∧ _))

theorem Span.not_encloses_self (s : Span) : ¬s.Encloses s := fun h => Position.lt_irrefl _ h.1

theorem Span.Encloses.trans {s t u : Span} (h : s.Encloses t) (h' : t.Encloses u) :
    s.Encloses u :=
  ⟨Position.lt_trans h.1 h'.1, Position.lt_trans h'.2 h.2⟩

/-- The first span begins before the second one, and ends behind it or before it. -/
def Span.Leads (s t : Span) : Prop := s.start < t.start ∧ (s.Encloses t ∨ s.stop < t.start)

namespace Tree

mutual

def marks : Tree → List (Side × Position)
  | .node span children =>
    (.opening span.bracket, span.start) ::
      (marksOfForest children ++ [(.closing span.bracket, span.stop)])

def marksOfForest : List Tree → List (Side × Position)
  | [] => []
  | tree :: trees => tree.marks ++ marksOfForest trees

end

theorem marksOfForest_append (trees others : List Tree) :
    marksOfForest (trees ++ others) = marksOfForest trees ++ marksOfForest others := by
  induction trees with
  | nil => rfl
  | cons tree trees ih => rw [List.cons_append, marksOfForest, marksOfForest, ih, List.append_assoc]

def marksAround : List Opened → List (Side × Position)
  | [] => []
  | opened :: around =>
    marksAround around ++ marksOfForest opened.siblings.reverse ++
      [(.opening opened.bracket, opened.start)]

namespace Growth

def marks (g : Growth) : List (Side × Position) :=
  marksAround g.around ++ marksOfForest g.grown.reverse

theorem marks_step {g next : Growth} {line : Nat} {token : Token}
    (h : g.step line token = some next) :
    next.marks = g.marks ++ (Token.bracketAt? (line, token)).toList := by
  cases token with
  | quoted | colon | comma =>
    cases h
    exact (List.append_nil _).symm
  | opening bracket column =>
    cases h
    exact List.append_nil _
  | closing bracket column =>
    obtain ⟨around, grown, literal, name⟩ := g
    cases around with
    | nil => cases h
    | cons opened around =>
      simp only [step] at h
      split at h
      · next same =>
        cases h
        simp [marks, marksAround, marksOfForest_append, marksOfForest, Tree.marks, same,
          Token.bracketAt?]
      · cases h

theorem marks_grow {g next : Growth} {tokens : List (Nat × Token)}
    (h : g.grow tokens = some next) :
    next.marks = g.marks ++ tokens.filterMap Token.bracketAt? := by
  induction tokens generalizing g with
  | nil =>
    cases h
    exact (List.append_nil _).symm
  | cons token tokens ih =>
    obtain ⟨line, token⟩ := token
    simp only [grow] at h
    split at h
    · next middle stepped =>
      rw [ih h, marks_step stepped, List.append_assoc, List.filterMap_cons]
      cases Token.bracketAt? (line, token) <;> rfl
    · cases h

end Growth

theorem marks_of_forest? {lines : List Line} {forest : List Tree}
    (h : forest? lines = some forest) : marksOfForest forest = Token.brackets lines := by
  unfold forest? at h
  split at h
  · next grown literal name grew =>
    cases h
    exact Growth.marks_grow grew
  · cases h

mutual

/-- The spans of several lines, each with those around it, innermost first. -/
def paths (around : List Span) : Tree → List (Span × List Span)
  | .node span children =>
    if span.isTall then (span, around) :: pathsOfForest (span :: around) children
    else pathsOfForest around children

def pathsOfForest (around : List Span) : List Tree → List (Span × List Span)
  | [] => []
  | tree :: trees => tree.paths around ++ pathsOfForest around trees

end

def entryOf (path : Span × List Span) : Entry := ⟨path.1, path.2.length⟩

mutual

theorem map_paths (tree : Tree) (around : List Span) :
    (tree.paths around).map entryOf = tree.entries around.length := by
  cases tree with
  | node span children =>
    rw [paths, entries]
    split
    · rw [List.map_cons, map_pathsOfForest]
      rfl
    · exact map_pathsOfForest children around

theorem map_pathsOfForest (trees : List Tree) (around : List Span) :
    (pathsOfForest around trees).map entryOf = entriesOfForest around.length trees := by
  cases trees with
  | nil => rfl
  | cons tree trees =>
    rw [pathsOfForest, entriesOfForest, List.map_append, map_paths, map_pathsOfForest]

end

mutual

theorem mem_marks_of_mem_paths {tree : Tree} {around : List Span} {path : Span × List Span}
    (h : path ∈ tree.paths around) :
    (.opening path.1.bracket, path.1.start) ∈ tree.marks ∧
      (.closing path.1.bracket, path.1.stop) ∈ tree.marks ∧ path.1.isTall := by
  cases tree with
  | node span children =>
    have inside {around : List Span} (h : path ∈ pathsOfForest around children) :
        (.opening path.1.bracket, path.1.start) ∈ (node span children).marks ∧
          (.closing path.1.bracket, path.1.stop) ∈ (node span children).marks ∧
          path.1.isTall := by
      obtain ⟨start, stop, tall⟩ := mem_marks_of_mem_pathsOfForest h
      rw [marks]
      exact ⟨List.mem_cons_of_mem _ (List.mem_append_left _ start),
        List.mem_cons_of_mem _ (List.mem_append_left _ stop), tall⟩
    rw [paths] at h
    split at h
    · next tall =>
      rcases List.mem_cons.mp h with rfl | h
      · exact ⟨by simp [marks], by simp [marks], tall⟩
      · exact inside h
    · exact inside h

theorem mem_marks_of_mem_pathsOfForest {trees : List Tree} {around : List Span}
    {path : Span × List Span} (h : path ∈ pathsOfForest around trees) :
    (.opening path.1.bracket, path.1.start) ∈ marksOfForest trees ∧
      (.closing path.1.bracket, path.1.stop) ∈ marksOfForest trees ∧ path.1.isTall := by
  cases trees with
  | nil => cases h
  | cons tree trees =>
    rw [marksOfForest]
    rcases List.mem_append.mp h with h | h
    · obtain ⟨start, stop, tall⟩ := mem_marks_of_mem_paths h
      exact ⟨List.mem_append_left _ start, List.mem_append_left _ stop, tall⟩
    · obtain ⟨start, stop, tall⟩ := mem_marks_of_mem_pathsOfForest h
      exact ⟨List.mem_append_right _ start, List.mem_append_right _ stop, tall⟩

end

theorem start_lt_stop {trees : List Tree} {around : List Span} {path : Span × List Span}
    (h : path ∈ pathsOfForest around trees) : path.1.start < path.1.stop :=
  .inl (of_decide_eq_true (mem_marks_of_mem_pathsOfForest h).2.2)

def Ordered (marks : List (Side × Position)) : Prop := marks.Pairwise fun a b => a.2 < b.2

theorem ordered_of_forest? {lines : List Line} {forest : List Tree}
    (h : forest? lines = some forest) : Ordered (marksOfForest forest) :=
  marks_of_forest? h ▸ Token.pairwise_brackets lines

theorem Ordered.node {span : Span} {children : List Tree}
    (h : Ordered (node span children).marks) :
    Ordered (marksOfForest children) ∧
      ∀ mark ∈ marksOfForest children, span.start < mark.2 ∧ mark.2 < span.stop := by
  rw [Ordered, marks, List.pairwise_cons, List.pairwise_append] at h
  obtain ⟨first, inner, -, last⟩ := h
  exact ⟨inner, fun mark hm =>
    ⟨first mark (List.mem_append_left _ hm), last mark hm _ (List.mem_singleton_self _)⟩⟩

theorem encloses_of_mem_pathsOfForest {span : Span} {children : List Tree} {around : List Span}
    {path : Span × List Span} (h : Ordered (node span children).marks)
    (hp : path ∈ pathsOfForest around children) : span.Encloses path.1 := by
  obtain ⟨start, stop, -⟩ := mem_marks_of_mem_pathsOfForest hp
  exact ⟨(h.node.2 _ start).1, (h.node.2 _ stop).2⟩

theorem apart_of_mem_paths {tree : Tree} {trees : List Tree} {around : List Span}
    {path other : Span × List Span} (h : Ordered (marksOfForest (tree :: trees)))
    (hp : path ∈ tree.paths around) (ho : other ∈ pathsOfForest around trees) :
    path.1.start < other.1.start ∧ path.1.stop < other.1.start := by
  obtain ⟨start, stop, -⟩ := mem_marks_of_mem_paths hp
  obtain ⟨other, -, -⟩ := mem_marks_of_mem_pathsOfForest ho
  rw [Ordered, marksOfForest, List.pairwise_append] at h
  exact ⟨h.2.2 _ start _ other, h.2.2 _ stop _ other⟩

theorem Ordered.of_cons {tree : Tree} {trees : List Tree}
    (h : Ordered (marksOfForest (tree :: trees))) :
    Ordered tree.marks ∧ Ordered (marksOfForest trees) := by
  rw [Ordered, marksOfForest, List.pairwise_append] at h
  exact ⟨h.1, h.2.1⟩

mutual

theorem leads_paths {tree : Tree} (h : Ordered tree.marks) (around : List Span) :
    (tree.paths around).Pairwise fun p q => p.1.Leads q.1 := by
  cases tree with
  | node span children =>
    rw [paths]
    split
    · refine List.pairwise_cons.mpr ⟨fun path hp => ?_, leads_pathsOfForest h.node.1 _⟩
      have encloses := encloses_of_mem_pathsOfForest h hp
      exact ⟨encloses.1, .inl encloses⟩
    · exact leads_pathsOfForest h.node.1 around

/-- Spans come in the order in which they begin, and do not overlap. -/
theorem leads_pathsOfForest {trees : List Tree} (h : Ordered (marksOfForest trees))
    (around : List Span) : (pathsOfForest around trees).Pairwise fun p q => p.1.Leads q.1 := by
  cases trees with
  | nil => exact .nil
  | cons tree trees =>
    refine List.pairwise_append.mpr
      ⟨leads_paths h.of_cons.1 around, leads_pathsOfForest h.of_cons.2 around, ?_⟩
    intro path hp other ho
    have apart := apart_of_mem_paths h hp ho
    exact ⟨apart.1, .inr apart.2⟩

end

/-- The spans of some paths that lie around a span, the last of them first. -/
def enclosing (paths : List (Span × List Span)) (s : Span) : List Span :=
  ((paths.map Prod.fst).filter fun t => t.Encloses s).reverse

theorem enclosing_append (paths others : List (Span × List Span)) (s : Span) :
    enclosing (paths ++ others) s = enclosing others s ++ enclosing paths s := by
  simp [enclosing]

theorem enclosing_eq_nil {paths : List (Span × List Span)} {s : Span}
    (h : ∀ path ∈ paths, ¬path.1.Encloses s) : enclosing paths s = [] := by
  simpa [enclosing] using h

mutual

theorem snd_eq_of_mem_paths {tree : Tree} (h : Ordered tree.marks) {around : List Span}
    {path : Span × List Span} (hp : path ∈ tree.paths around) :
    path.2 = enclosing (tree.paths around) path.1 ++ around := by
  cases tree with
  | node span children =>
    rw [paths] at hp ⊢
    split at hp
    · next tall =>
      rw [if_pos tall]
      rcases List.mem_cons.mp hp with rfl | hp
      · have none : enclosing ((span, around) :: pathsOfForest (span :: around) children) span =
            [] := by
          refine enclosing_eq_nil (List.forall_mem_cons.mpr ⟨?_, fun other ho encloses => ?_⟩)
          · exact span.not_encloses_self
          · exact span.not_encloses_self ((encloses_of_mem_pathsOfForest h ho).trans encloses)
        rw [none]
        rfl
      · have outer := encloses_of_mem_pathsOfForest h hp
        have inner := snd_eq_of_mem_pathsOfForest h.node.1 hp
        rw [inner]
        simp [enclosing, outer]
    · next flat =>
      rw [if_neg flat]
      exact snd_eq_of_mem_pathsOfForest h.node.1 hp

theorem snd_eq_of_mem_pathsOfForest {trees : List Tree} (h : Ordered (marksOfForest trees))
    {around : List Span} {path : Span × List Span} (hp : path ∈ pathsOfForest around trees) :
    path.2 = enclosing (pathsOfForest around trees) path.1 ++ around := by
  cases trees with
  | nil => cases hp
  | cons tree trees =>
    rw [pathsOfForest, enclosing_append]
    rcases List.mem_append.mp hp with hp | hp
    · have later : enclosing (pathsOfForest around trees) path.1 = [] := by
        refine enclosing_eq_nil fun other ho encloses => ?_
        exact Position.lt_irrefl _ (Position.lt_trans (apart_of_mem_paths h hp ho).1 encloses.1)
      rw [later, List.nil_append]
      exact snd_eq_of_mem_paths h.of_cons.1 hp
    · have earlier : enclosing (tree.paths around) path.1 = [] := by
        refine enclosing_eq_nil fun other ho encloses => ?_
        have before := Position.lt_trans (apart_of_mem_paths h ho hp).2 (start_lt_stop hp)
        exact Position.lt_irrefl _ (Position.lt_trans before encloses.2)
      rw [earlier, List.append_nil]
      exact snd_eq_of_mem_pathsOfForest h.of_cons.2 hp

end

/-- Every span comes with the innermost of those around the one before, itself included. -/
def Trail : List Span → List (Span × List Span) → Prop
  | _, [] => True
  | before, path :: rest => path.2 <:+ before ∧ Trail (path.1 :: path.2) rest

mutual

theorem trail_paths (tree : Tree) {around before : List Span} (suffix : around <:+ before)
    {rest : List (Span × List Span)} (h : ∀ above, around <:+ above → Trail above rest) :
    Trail before (tree.paths around ++ rest) := by
  cases tree with
  | node span children =>
    rw [paths]
    split
    · exact ⟨suffix, trail_pathsOfForest children List.suffix_rfl fun above ha =>
        h above ((List.suffix_cons span around).trans ha)⟩
    · exact trail_pathsOfForest children suffix h

theorem trail_pathsOfForest (trees : List Tree) {around before : List Span}
    (suffix : around <:+ before) {rest : List (Span × List Span)}
    (h : ∀ above, around <:+ above → Trail above rest) :
    Trail before (pathsOfForest around trees ++ rest) := by
  cases trees with
  | nil => exact h before suffix
  | cons tree trees =>
    rw [pathsOfForest, List.append_assoc]
    exact trail_paths tree suffix fun above ha => trail_pathsOfForest trees ha h

end

end Tree

end FeatureText
