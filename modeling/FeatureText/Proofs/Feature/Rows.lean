import FeatureText.Proofs.Feature.Range
import FeatureText.Proofs.Outline.Formatted

/-! The lines of features that are written below each other. The scanner for objects counts brackets
and the outline matches them; where they match, the objects are the trees of braces that stand in no
other tree. -/
namespace FeatureText

open FeatureText.Bracket Lexeme

namespace Tree

def objectPlaces? : Tree → Option (Position × Position)
  | .node span _ => if span.bracket = .brace then some (span.start, span.stop) else none

namespace Growth

/-- The trees that are complete and stand in no other one. -/
def roots (g : Growth) : List Tree :=
  match g.around.getLast? with
  | none => g.grown
  | some opened => opened.siblings

def begun? (g : Growth) : Option Position :=
  g.around.getLast?.bind fun opened => if opened.bracket = .brace then some opened.start else none

variable {g next : Growth} {grown : List Tree} {literal name : Option Text}

theorem roots_cons_cons (opened next : Opened) (around : List Opened) (grown others : List Tree)
    (literal name literal' name' : Option Text) :
    roots ⟨opened :: next :: around, grown, literal, name⟩ =
      roots ⟨next :: around, others, literal', name'⟩ := by
  simp [roots, List.getLast?_cons]

theorem begun?_cons_cons (opened next : Opened) (around : List Opened) (grown others : List Tree)
    (literal name literal' name' : Option Text) :
    begun? ⟨opened :: next :: around, grown, literal, name⟩ =
      begun? ⟨next :: around, others, literal', name'⟩ := by
  simp [begun?, List.getLast?_cons_cons]

/-- With one token the scanner finds the objects among the trees that the token completes outside of
all others. -/
theorem outerObjects_cons_of_step {line : Nat} {token : Token}
    (stepped : g.step line token = some next) (rest : List (Nat × Token)) :
    ∃ new, next.roots = new ++ g.roots ∧
      FeatureRange.outerObjects g.around.length g.begun? ((line, token) :: rest) =
        (FeatureRange.outerObjects next.around.length next.begun? rest).map
          (new.reverse.filterMap objectPlaces? ++ ·) := by
  have unchanged (roots : next.roots = g.roots)
      (scanned : FeatureRange.outerObjects g.around.length g.begun? ((line, token) :: rest) =
        FeatureRange.outerObjects next.around.length next.begun? rest) :
      ∃ new, next.roots = new ++ g.roots ∧
        FeatureRange.outerObjects g.around.length g.begun? ((line, token) :: rest) =
          (FeatureRange.outerObjects next.around.length next.begun? rest).map
            (new.reverse.filterMap objectPlaces? ++ ·) :=
    ⟨[], roots, by simp [scanned]⟩
  obtain ⟨around, siblings, literal, name⟩ := g
  cases token with
  | quoted | colon | comma =>
    cases stepped
    exact unchanged rfl (by cases around <;> rfl)
  | opening bracket column =>
    cases stepped
    cases around with
    | nil => exact unchanged rfl (by cases bracket <;> rfl)
    | cons outer around =>
      refine unchanged (roots_cons_cons _ _ _ _ siblings _ _ literal name) ?_
      rw [begun?_cons_cons _ _ _ _ siblings _ _ literal name]
      rfl
  | closing bracket column =>
    cases around with
    | nil => cases stepped
    | cons opened around =>
      rw [step] at stepped
      dsimp only at stepped
      split at stepped
      · next same =>
        cases stepped
        subst same
        cases around with
        | nil =>
          let whole := Tree.node ⟨opened.key, opened.bracket, opened.start, ⟨line, column⟩⟩
            siblings.reverse
          refine ⟨[whole], by simp [roots, whole], ?_⟩
          change (FeatureRange.outerObjects 0 none rest).map _ =
            (FeatureRange.outerObjects 0 none rest).map _
          cases kind : opened.bracket <;> simp [begun?, objectPlaces?, whole, kind]
        | cons outer around =>
          refine unchanged (roots_cons_cons _ _ _ _ (_ :: opened.siblings) _ _ none none).symm ?_
          rw [begun?_cons_cons _ _ _ _ (_ :: opened.siblings) _ _ none none]
          rfl
      · cases stepped

theorem outerObjects_of_grow {tokens : List (Nat × Token)}
    (h : g.grow tokens = some ⟨[], grown, literal, name⟩) :
    ∃ new, grown = new ++ g.roots ∧
      FeatureRange.outerObjects g.around.length g.begun? tokens =
        some (new.reverse.filterMap objectPlaces?) := by
  induction tokens generalizing g with
  | nil =>
    cases h
    exact ⟨[], rfl, rfl⟩
  | cons first tokens ih =>
    obtain ⟨line, token⟩ := first
    rw [grow] at h
    cases stepped : g.step line token with
    | none =>
      rw [stepped] at h
      cases h
    | some next =>
      rw [stepped] at h
      obtain ⟨later, whole, others⟩ := ih h
      obtain ⟨new, roots, found⟩ := outerObjects_cons_of_step stepped tokens
      refine ⟨later ++ new, by rw [whole, roots, List.append_assoc], ?_⟩
      rw [found, others]
      simp

end Growth

theorem outerObjects_of_forest? {lines : List Line} {forest : List Tree}
    (h : forest? lines = some forest) :
    FeatureRange.outerObjects 0 none (Token.placed lines) =
      some (forest.filterMap objectPlaces?) := by
  unfold forest? at h
  split at h
  · next grown literal name grew =>
    cases h
    obtain ⟨new, whole, found⟩ := Growth.outerObjects_of_grow grew
    have all : grown = new := whole.trans (List.append_nil new)
    rw [all]
    exact found
  · cases h

end Tree

/-- The first and the last line of each of some features that are written below each other. -/
def Feature.rows (step first : Nat) : List Json → List (Nat × Nat)
  | [] => []
  | feature :: features =>
    let last := first + (feature.format step 0).count '\n'
    (first, last) :: rows step (last + 1) features

theorem Feature.length_rows (step first : Nat) (features : List Json) :
    (rows step first features).length = features.length := by
  induction features generalizing first with
  | nil => rfl
  | cons feature features ih => exact congrArg (· + 1) (ih _)

namespace Tree.Growth

variable {features : List Json} {grown : List Tree}

theorem exists_reads_object (step : Nat) {value : Json} (object : value.isObject)
    (grown : List Tree) (p : Position) :
    ∃ span children, Reads ⟨[], grown, none, none⟩ p (value.format step 0)
        ⟨[], .node span children :: grown, none, none⟩ ∧
      span.bracket = .brace ∧ span.start.line = p.line ∧
      span.stop.line = p.line + (value.format step 0).count '\n' := by
  obtain ⟨members, rfl⟩ := Json.isObject_iff.mp object
  have root : rootKey = Quoted.spelling rootKey := by decide
  obtain ⟨inner, containers, text, inside⟩ : ∃ inner containers,
      (Json.object members).format step 0 =
        Bracket.brace.opening :: inner ++ [Bracket.brace.closing] ∧
      ∀ opened : Opened, opened.key = rootKey → ∀ p,
        Grows ⟨[opened], [], none, none⟩ p inner containers := by
    rw [Json.format]
    split
    · exact ⟨[], [], rfl, fun opened _ p => grows_of_reads (reads_nil _ p)⟩
    · rw [Json.formatMembers_eq_map, Json.block_eq]
      let found (member : Text × Json) := member.2.spread member.1 [rootKey]
      refine ⟨_, members.flatMap found, rfl, fun opened named p =>
        grows_blockLines 0 step (fun member _ grown p => ?_) p⟩
      have names : [opened].map Opened.key = [rootKey].map Quoted.spelling :=
        congrArg ([·]) (named.trans root)
      exact .member member.1 (fun p => grows_format step _ member.2 rfl names p) p
  obtain ⟨-, children, reads, -⟩ :=
    exists_reads_bracketed (g := ⟨[], grown, none, none⟩) (b := .brace) inside p
  refine ⟨_, children, text ▸ reads, rfl, rfl, ?_⟩
  rw [Position.line_advance, text, List.count_append]
  rfl

/-- Behind commas, features on lines of their own let trees of braces grow on these lines. -/
theorem exists_reads_rows (step : Nat) (objects : ∀ feature ∈ features, feature.isObject)
    (grown : List Tree) (literal name : Option Text) (p : Position) :
    ∃ (trees : List Tree) (literal' name' : Option Text), Reads ⟨[], grown, literal, name⟩ p
        (features.flatMap fun feature => [',', '\n'] ++ feature.format step 0)
        ⟨[], trees.reverse ++ grown, literal', name'⟩ ∧
      (trees.filterMap objectPlaces?).map (fun o => (o.1.line, o.2.line)) =
        Feature.rows step (p.line + 1) features := by
  have line : ∀ c ∈ ['\n'], isBlank c := List.forall_mem_singleton.mpr rfl
  induction features generalizing grown literal name p with
  | nil => exact ⟨[], literal, name, reads_nil _ p, rfl⟩
  | cons feature features ih =>
    rw [List.forall_mem_cons] at objects
    let below := p.advance ([','] ++ ['\n'])
    have comma := (reads_comma ⟨[], grown, literal, name⟩ p).append (reads_blank _ _ line)
    obtain ⟨span, children, reads, brace, start, stop⟩ :=
      exists_reads_object step objects.1 grown below
    obtain ⟨trees, literal', name', others, rows⟩ := ih objects.2
      (.node span children :: grown) none none (below.advance (feature.format step 0))
    refine ⟨.node span children :: trees, literal', name', ?_, ?_⟩
    · have whole := (comma.append reads).append (Position.advance_append .. ▸ others)
      simpa using whole
    · have next : below.line = p.line + 1 := by simp [below, Position.line_advance]
      rw [next] at start stop
      rw [Position.line_advance, next] at rows
      simp [objectPlaces?, brace, start, stop, rows, Feature.rows]

end Tree.Growth

variable {features : List Json}

theorem Tree.exists_forest_rows (step : Nat) (objects : ∀ feature ∈ features, feature.isObject) :
    ∃ forest, forest? (splitLines (formatFeatures step features)) = some forest ∧
      (forest.filterMap objectPlaces?).map (fun o => (o.1.line, o.2.line)) =
        Feature.rows step 0 features := by
  have plain := return_not_mem_formatFeatures step features
  cases features with
  | nil => exact ⟨[], rfl, rfl⟩
  | cons feature features =>
    rw [List.forall_mem_cons] at objects
    obtain ⟨span, children, reads, brace, start, stop⟩ :=
      Growth.exists_reads_object step objects.1 [] .origin
    obtain ⟨trees, literal, name, others, rows⟩ := Growth.exists_reads_rows step objects.2
      [.node span children] none none (Position.origin.advance (feature.format step 0))
    have whole := reads.append others
    rw [← List.flatMap_map, ← intercalate_cons, ← List.map_cons, ← List.reverse_cons] at whole
    refine ⟨.node span children :: trees, forest?_of_reads whole plain, ?_⟩
    rw [Position.line_advance] at rows
    simp only [Position.origin, Nat.zero_add] at start stop rows
    simp [objectPlaces?, brace, start, stop, rows, Feature.rows]

/-- Of written features that are objects, each stands on the lines that it is written on. -/
theorem FeatureRange.ofLines_formatFeatures (step : Nat)
    (objects : ∀ feature ∈ features, feature.isObject) :
    let ranges := ofLines (splitLines (formatFeatures step features))
    ranges.map index = List.range features.length ∧
      ranges.map (fun r => (r.startLine, r.stopLine)) = Feature.rows step 0 features := by
  intro ranges
  obtain ⟨forest, found, rows⟩ := Tree.exists_forest_rows step objects
  have places := ofLines_eq_ofObjects (Tree.outerObjects_of_forest? found)
  have count : (forest.filterMap Tree.objectPlaces?).length = features.length := by
    have length := congrArg List.length rows
    rwa [List.length_map, Feature.length_rows] at length
  simp only [ranges, places]
  rw [map_index_ofObjects, map_lines_ofObjects, count, rows]
  exact ⟨rfl, rfl⟩

end FeatureText
