import FeatureText.Proofs.Bracket.Placed
import FeatureText.Proofs.Feature.Formatted
import FeatureText.Proofs.Json.Container
import FeatureText.Proofs.Outline.Identity

/-! The outline of formatted features. Reading what is printed of a value lets trees grow whose tall
spans are the containers that are printed on several lines, under the names as they are printed. -/
namespace FeatureText

open FeatureText.Bracket Lexeme

def Json.blockLines (indent step : Nat) (parts : List Text) : Text :=
  '\n' :: [',', '\n'].intercalate (parts.map (spaces (indent + step) ++ ·)) ++
    '\n' :: spaces indent

theorem Json.block_eq (bracket : Bracket) (indent step : Nat) (parts : List Text) :
    block bracket indent step parts =
      bracket.opening :: blockLines indent step parts ++ [bracket.closing] := by
  simp [block, blockLines]

/-- What a node tells of its place among others: the key, the bracket and the keys around it,
innermost first. -/
abbrev Shape := Text × Bracket × List Text

def Container.shape (c : Container) : Shape := (c.key, c.bracket, c.around.map Quoted.spelling)

namespace Tree

def shapeOf (path : Span × List Span) : Shape :=
  (path.1.key, path.1.bracket, path.2.map Span.key)

theorem pathsOfForest_append (around : List Span) (trees others : List Tree) :
    pathsOfForest around (trees ++ others) =
      pathsOfForest around trees ++ pathsOfForest around others := by
  induction trees with
  | nil => rfl
  | cons tree trees ih => rw [List.cons_append, pathsOfForest, pathsOfForest, ih, List.append_assoc]

mutual

theorem map_fst_paths (tree : Tree) (around other : List Span) :
    (tree.paths around).map Prod.fst = (tree.paths other).map Prod.fst := by
  cases tree with
  | node span children =>
    rw [paths, paths]
    split
    · rw [List.map_cons, List.map_cons, map_fst_pathsOfForest]
    · exact map_fst_pathsOfForest children around other

theorem map_fst_pathsOfForest (trees : List Tree) (around other : List Span) :
    (pathsOfForest around trees).map Prod.fst = (pathsOfForest other trees).map Prod.fst := by
  cases trees with
  | nil => rfl
  | cons tree trees =>
    rw [pathsOfForest, pathsOfForest, List.map_append, List.map_append, map_fst_paths,
      map_fst_pathsOfForest]

end

namespace Growth

/-- Reading a text leads from one state of growth to another. -/
def Reads (g : Growth) (p : Position) (text : Text) (next : Growth) : Prop :=
  ∀ rest, g.grow (Token.placedAt p (text ++ rest)) =
    next.grow (Token.placedAt (p.advance text) rest)

variable {g next last : Growth} {p : Position} {text other : Text}

theorem reads_nil (g : Growth) (p : Position) : g.Reads p [] g := fun _ => rfl

theorem Reads.append (h : g.Reads p text next) (h' : next.Reads (p.advance text) other last) :
    g.Reads p (text ++ other) last := by
  intro rest
  rw [List.append_assoc, h, h', Position.advance_append]

theorem reads_blank (g : Growth) (p : Position) {blank : Text} (hb : ∀ c ∈ blank, isBlank c) :
    g.Reads p blank g := by
  induction blank generalizing p with
  | nil => exact reads_nil g p
  | cons c blank ih =>
    obtain ⟨first, others⟩ := List.forall_mem_cons.mp hb
    have one : g.Reads p [c] g := fun rest => congrArg g.grow (Token.placedAt_blank first p rest)
    exact one.append (ih _ others)

theorem reads_spelling {content : Content} {stops : Char → Bool} {token : Token}
    (h : content.Spells text stops) (token_eq : content.tokens text p.column = [token])
    (stepped : g.step p.line token = some next) : g.Reads p text next := by
  intro rest
  rw [Token.placedAt_spelling h, token_eq, List.map_singleton, List.singleton_append, grow, stepped]

theorem reads_quote (g : Growth) (p : Position) (text : Text) :
    g.Reads p (Quoted.quote text) { g with literal := some (Quoted.spelling text) } := by
  refine reads_spelling (Content.spells_quote text) rfl ?_
  simp [Quoted.quote, Quoted.spelling, step]

theorem reads_colon (g : Growth) (p : Position) :
    g.Reads p [':'] { g with name := g.literal, literal := none } :=
  reads_spelling .colon rfl rfl

theorem reads_comma (g : Growth) (p : Position) :
    g.Reads p [','] { g with name := none, literal := none } :=
  reads_spelling .comma rfl rfl

theorem reads_opening (g : Growth) (p : Position) (bracket : Bracket) :
    g.Reads p [bracket.opening]
      ⟨⟨g.name.getD g.context, bracket, p, g.grown⟩ :: g.around, [], none, none⟩ :=
  reads_spelling (.opening bracket) rfl rfl

theorem reads_closing (opened : Opened) (around : List Opened) (grown : List Tree)
    (literal name : Option Text) (p : Position) :
    Reads ⟨opened :: around, grown, literal, name⟩ p [opened.bracket.closing]
      ⟨around, .node ⟨opened.key, opened.bracket, opened.start, p⟩ grown.reverse :: opened.siblings,
        none, none⟩ := by
  refine reads_spelling (.closing opened.bracket) rfl ?_
  simp [step]

theorem reads_plain (g : Growth) (p : Position) (line : '\n' ∉ text)
    (plain : ∀ c ∈ text, ∀ special ∈ ['"', '{', '[', '}', ']', ':', ','], c ≠ special) :
    g.Reads p text g := by
  have none (rest : Text) : Token.scan .outside p.column (text ++ rest) =
      [] ++ Token.scan .outside (p.column + text.length) rest :=
    Token.scan_not_special plain p.column rest
  exact fun rest => congrArg g.grow (Token.placedAt_append_of_scan line none rest)

theorem exists_reads_scalar (g : Growth) (p : Position) {value : Json}
    (scalar : value.isContainer = false) :
    ∃ literal, g.Reads p value.compact { g with literal } := by
  have line := Json.newline_not_mem_compact scalar
  cases value with
  | array | object => cases scalar
  | text value => exact ⟨_, reads_quote g p value⟩
  | null => exact ⟨g.literal, reads_plain g p line (by simp [Json.compact])⟩
  | bool value => exact ⟨g.literal, reads_plain g p line (by cases value <;> simp [Json.compact])⟩
  | number n =>
    exact ⟨g.literal, reads_plain g p line fun c hc =>
      Token.not_special_of_isMark (n.isMark_text c hc)⟩

/-- Reading a text lets trees grow beside those that are there, whose tall spans are those of some
containers. -/
def Grows (g : Growth) (p : Position) (text : Text) (containers : List Container) : Prop :=
  ∃ trees literal name,
    g.Reads p text ⟨g.around, trees.reverse ++ g.grown, literal, name⟩ ∧
    ∀ above : List Span, above.map Span.key = g.around.map Opened.key →
      (pathsOfForest above trees).map shapeOf = containers.map Container.shape

variable {containers others : List Container} {around : List Opened} {grown : List Tree}
variable {literal name : Option Text}

theorem grows_of_reads (h : g.Reads p text { g with literal, name }) : g.Grows p text [] :=
  ⟨[], literal, name, h, fun _ _ => rfl⟩

theorem Reads.grows (h : g.Reads p text { g with literal, name })
    (h' : Grows { g with literal, name } (p.advance text) other containers) :
    g.Grows p (text ++ other) containers := by
  obtain ⟨trees, literal, name, reads, paths⟩ := h'
  exact ⟨trees, literal, name, h.append reads, paths⟩

theorem Grows.append (h : g.Grows p text containers)
    (h' : ∀ grown literal name,
      Grows ⟨g.around, grown, literal, name⟩ (p.advance text) other others) :
    g.Grows p (text ++ other) (containers ++ others) := by
  obtain ⟨trees, literal, name, reads, paths⟩ := h
  obtain ⟨more, literal', name', reads', paths'⟩ := h' (trees.reverse ++ g.grown) literal name
  refine ⟨trees ++ more, literal', name', ?_, fun above keys => ?_⟩
  · rw [List.reverse_append, List.append_assoc]
    exact reads.append reads'
  · rw [pathsOfForest_append, List.map_append, List.map_append, paths above keys, paths' above keys]

section Parts

variable {ι : Type} {items : List ι} {write : ι → Text} {found : ι → List Container}
variable {blank : Text} (hb : ∀ c ∈ blank, isBlank c)
variable (h : ∀ item ∈ items, ∀ grown p,
  Grows ⟨around, grown, none, none⟩ p (write item) (found item))

include hb h

theorem grows_flatMap_comma (grown : List Tree) (literal name : Option Text) (p : Position) :
    Grows ⟨around, grown, literal, name⟩ p (items.flatMap fun item => ',' :: blank ++ write item)
      (items.flatMap found) := by
  induction items generalizing grown literal name p with
  | nil => exact grows_of_reads (reads_nil _ p)
  | cons item items ih =>
    rw [List.forall_mem_cons] at h
    have comma := (reads_comma ⟨around, grown, literal, name⟩ p).append (reads_blank _ _ hb)
    exact (comma.grows (h.1 grown _)).append fun grown literal name => ih h.2 grown literal name _

theorem grows_intercalate (grown : List Tree) (p : Position) :
    Grows ⟨around, grown, none, none⟩ p ((',' :: blank).intercalate (items.map write))
      (items.flatMap found) := by
  cases items with
  | nil => exact grows_of_reads (reads_nil _ p)
  | cons item items =>
    rw [List.forall_mem_cons] at h
    rw [List.map_cons, intercalate_cons, List.flatMap_map, List.flatMap_cons]
    exact (h.1 grown p).append fun grown literal name =>
      grows_flatMap_comma hb h.2 grown literal name _

end Parts

section Bracketed

variable {b : Bracket} {inner : Text}
variable (h : ∀ opened : Opened, opened.key = g.name.getD g.context → ∀ p,
  Grows ⟨opened :: g.around, [], none, none⟩ p inner containers)

include h

theorem exists_reads_bracketed (p : Position) :
    let span : Span := ⟨g.name.getD g.context, b, p, p.advance (b.opening :: inner)⟩
    (span.isTall ↔ '\n' ∈ inner) ∧ ∃ children,
      g.Reads p (b.opening :: inner ++ [b.closing])
        ⟨g.around, .node span children :: g.grown, none, none⟩ ∧
      ∀ above : List Span, above.map Span.key = span.key :: g.around.map Opened.key →
        (pathsOfForest above children).map shapeOf = containers.map Container.shape := by
  intro span
  let opened : Opened := ⟨g.name.getD g.context, b, p, g.grown⟩
  obtain ⟨trees, literal, name, reads, paths⟩ := h opened rfl (p.advance [b.opening])
  have closing := reads_closing opened g.around (trees.reverse ++ []) literal name
    ((p.advance [b.opening]).advance inner)
  rw [List.append_nil, List.reverse_reverse] at closing
  rw [List.append_nil] at reads
  refine ⟨?_, trees, ?_, paths⟩
  · have first : '\n' ≠ b.opening := by cases b <;> decide
    rw [Span.isTall, decide_eq_true_iff, Position.line_lt_advance_iff, List.mem_cons]
    exact or_iff_right first
  · exact ((reads_opening g p b).append reads).append closing

theorem grows_tall (tall : '\n' ∈ inner) {c : Container} (key : g.name.getD g.context = c.key)
    (kind : c.bracket = b)
    (names : g.around.map Opened.key = c.around.map Quoted.spelling) (p : Position) :
    g.Grows p (b.opening :: inner ++ [b.closing]) (c :: containers) := by
  obtain ⟨isTall, children, reads, paths⟩ := exists_reads_bracketed (b := b) h p
  refine ⟨[.node _ children], none, none, reads, fun above keys => ?_⟩
  have outer : shapeOf (⟨g.name.getD g.context, b, p, p.advance (b.opening :: inner)⟩, above) =
      c.shape := by
    rw [shapeOf, Container.shape, key, kind, keys, names]
  have inside := paths (_ :: above) (by rw [List.map_cons, keys])
  rw [pathsOfForest, pathsOfForest, Tree.paths, if_pos (isTall.mpr tall), List.append_nil,
    List.map_cons, List.map_cons, outer, inside]

theorem grows_flat (flat : '\n' ∉ inner) (none : containers = []) (p : Position) :
    g.Grows p (b.opening :: inner ++ [b.closing]) [] := by
  obtain ⟨isTall, children, reads, paths⟩ := exists_reads_bracketed (b := b) h p
  refine ⟨[.node _ children], .none, .none, reads, fun above keys => ?_⟩
  have inside := paths (_ :: above) (by rw [List.map_cons, keys])
  rw [none, List.map_nil, List.map_eq_nil_iff] at inside
  have spans := map_fst_pathsOfForest children above
    (⟨g.name.getD g.context, b, p, p.advance (b.opening :: inner)⟩ :: above)
  rw [inside, List.map_nil, List.map_eq_nil_iff] at spans
  rw [pathsOfForest, pathsOfForest, Tree.paths, if_neg (mt isTall.mp flat), spans]
  rfl

end Bracketed

theorem grows_blockLines {ι : Type} {items : List ι} {write : ι → Text}
    {found : ι → List Container} (indent step : Nat)
    (h : ∀ item ∈ items, ∀ grown p,
      Grows ⟨around, grown, none, none⟩ p (write item) (found item)) (p : Position) :
    Grows ⟨around, [], none, none⟩ p (Json.blockLines indent step (items.map write))
      (items.flatMap found) := by
  have line : ∀ c ∈ ['\n'], isBlank c := by simp [isBlank]
  have last : ∀ c ∈ '\n' :: Json.spaces indent, isBlank c :=
    List.forall_mem_cons.mpr ⟨rfl, Json.isBlank_spaces indent⟩
  have parts : Grows ⟨around, [], none, none⟩ p
      (['\n'] ++ ([',', '\n'].intercalate
        (items.map fun item => Json.spaces (indent + step) ++ write item) ++
          '\n' :: Json.spaces indent)) (items.flatMap found ++ []) := by
    refine (reads_blank _ p line).grows ((grows_intercalate line ?_ [] _).append ?_)
    · intro item hi grown p
      have indented := reads_blank ⟨around, grown, none, none⟩ p
        (Json.isBlank_spaces (indent + step))
      exact indented.grows (h item hi grown _)
    · exact fun grown literal name => grows_of_reads (reads_blank _ _ last)
  rw [List.append_nil] at parts
  simpa [Json.blockLines, List.map_map, Function.comp_def] using parts

theorem grows_block {ι : Type} {items : List ι} {write : ι → Text} {found : ι → List Container}
    {bracket : Bracket} (indent step : Nat) {c : Container}
    (h : ∀ item ∈ items, ∀ opened : Opened, opened.key = c.key → ∀ grown p,
      Grows ⟨opened :: g.around, grown, none, none⟩ p (write item) (found item))
    (key : g.name.getD g.context = c.key) (kind : c.bracket = bracket)
    (names : g.around.map Opened.key = c.around.map Quoted.spelling) (p : Position) :
    g.Grows p (Json.block bracket indent step (items.map write)) (c :: items.flatMap found) := by
  rw [Json.block_eq]
  refine grows_tall (fun opened named p => ?_) (by simp [Json.blockLines]) key kind names p
  exact grows_blockLines indent step (fun item hi => h item hi opened (named.trans key)) p

theorem grows_scalar (g : Growth) (p : Position) {value : Json}
    (scalar : value.isContainer = false) : g.Grows p value.compact [] := by
  obtain ⟨literal, reads⟩ := exists_reads_scalar g p scalar
  exact grows_of_reads reads

theorem grows_inline (g : Growth) {items : List Json} (flat : items.any Json.isContainer = false)
    (p : Position) :
    g.Grows p ('[' :: [',', ' '].intercalate (items.map Json.compact) ++ [']']) [] := by
  have scalar : ∀ item ∈ items, item.isContainer = false := by simpa using flat
  have blank : ∀ c ∈ [' '], isBlank c := List.forall_mem_singleton.mpr rfl
  have inner (opened : Opened) (p : Position) :
      Grows ⟨opened :: g.around, [], none, none⟩ p ([',', ' '].intercalate (items.map Json.compact))
        (items.flatMap fun _ => []) :=
    grows_intercalate blank (fun item hi grown p => grows_scalar _ p (scalar item hi)) [] p
  exact grows_flat (b := .square) (fun opened _ p => inner opened p)
    (Json.newline_not_mem_inline flat) (by simp) p

theorem Grows.member (name : Text) {around : List Opened} {value : Text}
    (h : ∀ p, Grows ⟨around, grown, none, some (Quoted.spelling name)⟩ p value containers)
    (p : Position) :
    Grows ⟨around, grown, none, none⟩ p (Quoted.quote name ++ ':' :: ' ' :: value) containers := by
  have blank : ∀ c ∈ [' '], isBlank c := List.forall_mem_singleton.mpr rfl
  have quoted := reads_quote ⟨around, grown, none, none⟩ p name
  have named := (quoted.append (reads_colon _ _)).append (reads_blank _ _ blank)
  simpa using named.grows (h _)

theorem map_key_cons {opened : Opened} {name : Text} {names : List Text}
    (named : opened.key = Quoted.spelling name)
    (h : around.map Opened.key = names.map Quoted.spelling) :
    (opened :: around).map Opened.key = (name :: names).map Quoted.spelling := by
  rw [List.map_cons, List.map_cons, named, h]

/-- What is printed of a value lets its containers grow under the name that the value goes by. -/
theorem grows_format (step indent : Nat) (value : Json) {name : Text} {around : List Text}
    (key : g.name.getD g.context = Quoted.spelling name)
    (names : g.around.map Opened.key = around.map Quoted.spelling) (p : Position) :
    g.Grows p (value.format step indent) (value.spread name around) := by
  induction value using Json.induct generalizing g indent name around p with
  | null | bool | number | text => exact grows_scalar g p rfl
  | array items ih =>
    rw [Json.format]
    split
    · next tall =>
      rw [Json.spread_array _ _ tall, Json.formatItems_eq_map]
      let c : Container := ⟨.array items, name, around⟩
      refine grows_block (c := c) indent step (fun item hi opened named grown p => ?_) key rfl names
        p
      exact ih item hi _ (g := ⟨opened :: g.around, grown, none, none⟩) named
        (map_key_cons named names) p
    · next flat =>
      have flat := Bool.eq_false_iff.mpr flat
      rw [Json.spread_array_of_flat _ _ flat]
      exact grows_inline g flat p
  | object members ih =>
    rw [Json.format]
    split
    · next none =>
      rw [List.isEmpty_iff.mp none]
      exact grows_flat (b := .brace) (fun opened _ p => grows_of_reads (reads_nil _ p))
        List.not_mem_nil rfl p
    · next some =>
      rw [Json.spread_object _ _ (by simpa using some), Json.formatMembers_eq_map]
      let c : Container := ⟨.object members, name, around⟩
      refine grows_block (c := c) indent step (fun member hm opened named grown p => ?_) key rfl
        names p
      exact .member member.1 (fun p => ih member hm _ rfl (map_key_cons named names) p) p

end Growth

/-- Reading a whole text tells its forest. -/
theorem forest?_of_reads {text : Text} {trees : List Tree} {literal name : Option Text}
    (reads : Growth.seed.Reads .origin text ⟨[], trees.reverse, literal, name⟩)
    (plain : '\r' ∉ text) : forest? (splitLines text) = some trees := by
  have grown := reads []
  rw [List.append_nil] at grown
  have seed : Growth.seed.grow (Token.placedAt .origin text) =
      some ⟨[], trees.reverse, literal, name⟩ := grown
  rw [splitLines_eq_pieces plain, forest?, Token.placed_pieces, seed]
  simp

theorem exists_forest_formatFeatures (step : Nat) (features : List Json) :
    ∃ forest, forest? (splitLines (formatFeatures step features)) = some forest ∧
      (pathsOfForest [] forest).map shapeOf = (Json.spreads features).map Container.shape := by
  have line : ∀ c ∈ ['\n'], isBlank c := List.forall_mem_singleton.mpr rfl
  have root : rootKey = Quoted.spelling rootKey := by decide
  have none : ([] : List Opened).map Opened.key = ([] : List Text).map Quoted.spelling := rfl
  obtain ⟨trees, literal, name, reads, paths⟩ := Growth.grows_intercalate line
    (fun feature (_ : feature ∈ features) grown p => Growth.grows_format step 0 feature
      (g := ⟨[], grown, .none, .none⟩) root none p) [] .origin
  rw [List.append_nil] at reads
  refine ⟨trees, forest?_of_reads reads (return_not_mem_formatFeatures step features), ?_⟩
  rw [Json.spreads_eq_flatMap]
  exact paths [] rfl

end Tree

namespace Outline

theorem map_shapeOf_paths (step : Nat) (features : List Json) :
    (paths (splitLines (formatFeatures step features))).map Tree.shapeOf =
      (Json.spreads features).map Container.shape := by
  obtain ⟨forest, found, shapes⟩ := Tree.exists_forest_formatFeatures step features
  rw [paths, found]
  exact shapes

theorem isBalanced_formatFeatures (step : Nat) (features : List Json) :
    isBalanced (splitLines (formatFeatures step features)) := by
  obtain ⟨forest, found, -⟩ := Tree.exists_forest_formatFeatures step features
  rw [← Tree.isSome_forest?, found]
  rfl

/-- The nodes of formatted features are the containers that are printed on several lines, in order,
under their printed names, and as deep as they stand in others. -/
theorem nodes_are_spread_containers (o : Outline) (step : Nat) (features : List Json) :
    let rebuilt := o.rebuild (splitLines (formatFeatures step features))
    rebuilt.2.balanced ∧ rebuilt.1.balanced ∧
      rebuilt.1.nodes.map (fun n => (n.key, n.bracket, n.depth)) =
        (Json.spreads features).map (fun c => (c.key, c.bracket, c.depth)) ∧
      ∀ (value : Json) (indent : Nat), '\n' ∈ value.format step indent ↔ value.isSpread := by
  intro rebuilt
  have balanced := isBalanced_formatFeatures step features
  refine ⟨?_, (o.balanced_rebuild _).trans balanced, ?_,
    fun value indent => Json.newline_mem_format_iff step indent value⟩
  · simp only [rebuilt, o.rebuild_of_balanced balanced]
  · have entries : rebuilt.1.nodes.map Node.entry = (paths _).map Tree.entryOf :=
      (o.map_entry_nodes_rebuild _).trans (map_entryOf_paths _).symm
    have shapes := map_shapeOf_paths step features
    have places := congrArg (List.map fun e => (e.span.key, e.span.bracket, e.depth)) entries
    have depths := congrArg (List.map fun s => (s.1, s.2.1, s.2.2.length)) shapes
    rw [List.map_map, List.map_map] at places depths
    refine places.trans ?_
    simpa [Function.comp_def, Tree.entryOf, Tree.shapeOf, Container.shape,
      Container.depth] using depths

end Outline

end FeatureText
