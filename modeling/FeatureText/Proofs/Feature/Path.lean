import FeatureText.Proofs.Feature.Grammar
import Mathlib.Data.List.SplitBy

/-! Where problems are. The steps of a path are read back from its text, no two problems of a list
have the same path, and each path leads through the list up to its last step. -/
namespace FeatureText.Schema

def startsStep (c : Char) : Bool := c == '.' || c == '['

def Step.read : Text → Step
  | '[' :: digits => .index (Nat.ofDigitChars 10 digits.dropLast 0)
  | part => .member part.tail

def Path.read (text : Text) : Path :=
  match text.splitBy fun _ c => !startsStep c with
  | [] => ⟨[], []⟩
  | base :: parts => ⟨base, parts.map Step.read⟩

/-- No character of the name starts a step. -/
def isPlainName (name : Text) : Bool := name.all fun c => !startsStep c

theorem startsStep_of_isPlainName {name : Text} (plain : isPlainName name) :
    ∀ c ∈ name, startsStep c = false := by
  simpa [isPlainName] using plain

def Step.IsPlain : Step → Prop
  | .member name => isPlainName name
  | .index _ => True

structure Path.IsPlain (p : Path) : Prop where
  base_ne_nil : p.base ≠ []
  base : isPlainName p.base
  steps : ∀ step ∈ p.steps, step.IsPlain

theorem Step.exists_text_eq_cons {step : Step} (plain : step.IsPlain) :
    ∃ mark rest, step.text = mark :: rest ∧ startsStep mark ∧ ∀ c ∈ rest, startsStep c = false := by
  cases step with
  | member name => exact ⟨'.', name, rfl, rfl, startsStep_of_isPlainName plain⟩
  | index place =>
    refine ⟨'[', Nat.toDigits 10 place ++ [']'], rfl, rfl, ?_⟩
    intro c hc
    rcases List.mem_append.mp hc with hc | hc
    · have digit : c.isDigit := Nat.isDigit_of_mem_toDigits (by decide) (by decide) hc
      apply Bool.eq_false_iff.mpr
      intro starts
      rcases (by simpa [startsStep] using starts : c = '.' ∨ c = '[') with rfl | rfl
      · exact absurd digit (by decide)
      · exact absurd digit (by decide)
    · rw [List.mem_singleton.mp hc]
      rfl

theorem Step.read_text (step : Step) : Step.read step.text = step := by
  cases step with
  | member name => rfl
  | index place => simp [Step.text, Step.read]

theorem Step.text_ne_nil (step : Step) : step.text ≠ [] := by
  cases step <;> exact List.cons_ne_nil _ _

theorem isChain_of_plain {first : Char} {rest : Text} (plain : ∀ c ∈ rest, startsStep c = false) :
    (first :: rest).IsChain fun _ c => !startsStep c := by
  induction rest generalizing first with
  | nil => exact .singleton first
  | cons c rest ih =>
    rw [List.forall_mem_cons] at plain
    exact .cons_cons (by simp [plain.1]) (ih plain.2)

theorem isChain_map_text {base : Text} {steps : List Step} (notEmpty : base ≠ [])
    (plain : ∀ step ∈ steps, step.IsPlain) :
    (base :: steps.map Step.text).IsChain fun left right =>
      ∃ (_ : left ≠ []) (h : right ≠ []), (!startsStep (right.head h)) = false := by
  induction steps generalizing base with
  | nil => exact .singleton base
  | cons step steps ih =>
    rw [List.forall_mem_cons] at plain
    obtain ⟨mark, rest, text, starts, -⟩ := Step.exists_text_eq_cons plain.1
    refine .cons_cons ⟨notEmpty, step.text_ne_nil, ?_⟩ (ih step.text_ne_nil plain.2)
    simp [text, starts]

/-- The text of a path falls into its name and its steps, since nothing else starts a step. -/
theorem Path.splitBy_text {p : Path} (plain : p.IsPlain) :
    (p.text.splitBy fun _ c => !startsStep c) = p.base :: p.steps.map Step.text := by
  have joined : p.text = (p.base :: p.steps.map Step.text).flatten := by
    simp [Path.text, List.flatMap]
  rw [joined]
  apply List.splitBy_flatten
  · simp [plain.base_ne_nil.symm, Step.text_ne_nil]
  · intro part hp
    rcases List.mem_cons.mp hp with rfl | hp
    · obtain ⟨first, rest, base⟩ := List.exists_cons_of_ne_nil plain.base_ne_nil
      rw [base]
      have tail := (List.forall_mem_cons.mp (base ▸ startsStep_of_isPlainName plain.base)).2
      exact isChain_of_plain tail
    · obtain ⟨step, hs, rfl⟩ := List.mem_map.mp hp
      obtain ⟨mark, rest, text, -, tail⟩ := Step.exists_text_eq_cons (plain.steps step hs)
      rw [text]
      exact isChain_of_plain tail
  · exact isChain_map_text plain.base_ne_nil plain.steps

/-- The steps of a path are read from its text, so a text spells one path only. -/
theorem Path.read_text {p : Path} (plain : p.IsPlain) : Path.read p.text = p := by
  rw [Path.read, Path.splitBy_text plain]
  simp [Function.comp_def, Step.read_text]

def Step.at? (value : Json) : Step → Option Json
  | .member name => value.member? name
  | .index place => value.items?.bind fun items => items[place]?

def follow? (value : Json) : List Step → Option Json
  | [] => some value
  | step :: steps => (step.at? value).bind fun inner => follow? inner steps

theorem follow?_concat (value : Json) (steps : List Step) (step : Step) :
    follow? value (steps ++ [step]) = (follow? value steps).bind fun inner => step.at? inner := by
  induction steps generalizing value with
  | nil => simp [follow?]
  | cons first steps ih => simp [follow?, ih, Option.bind_assoc]

def Flaw.isMissing : Flaw → Bool
  | missingType | missingGeometry | missingGeometryType | missingCoordinates
  | missingProperties => true
  | _ => false

theorem head?_toList_append {front back : String} {c : Char} (h : front.toList.head? = some c) :
    (front ++ back).toList.head? = some c := by
  simp [String.toList_append, List.head?_append, h]

theorem exists_head?_message {flaw : Flaw} (there : flaw.isMissing = false) :
    ∃ c ≠ 'M', flaw.message.toList.head? = some c := by
  cases flaw with
  | featureNotObject => exact ⟨'F', by decide, rfl⟩
  | geometryNotObject | missingGeometries => exact ⟨'G', by decide, rfl⟩
  | coordinatesNotArray => exact ⟨'C', by decide, rfl⟩
  | propertiesNotObject => exact ⟨'P', by decide, rfl⟩
  | wrongGeometryType found => exact ⟨'I', by decide, head?_toList_append rfl⟩
  | wrongType | wrongPosition | unknownGeometry =>
    exact ⟨'I', by decide, head?_toList_append (head?_toList_append rfl)⟩
  | _ => cases there

theorem isMissing_of_message {flaw : Flaw} (h : "Missing".toList <+: flaw.message.toList) :
    flaw.isMissing := by
  by_contra there
  obtain ⟨c, ne, head⟩ := exists_head?_message (Bool.eq_false_iff.mpr there)
  obtain ⟨back, same⟩ := h
  rw [← same] at head
  exact ne (Option.some.inj head).symm

/-- All steps to the problem but the last lead somewhere in the value, and if something is missing
the last leads nowhere. -/
structure Problem.IsLocated (root : Json) (problem : Problem) : Prop where
  plain : problem.path.IsPlain
  found : ∃ front last inner, problem.path.steps = front ++ [last] ∧
    follow? root front = some inner ∧ (problem.flaw.isMissing → last.at? inner = none)

/-- The path is the start of another. -/
def Path.Starts (p q : Path) : Prop := q.base = p.base ∧ p.steps <+: q.steps

/-- Problems found at a path in a value: their paths go on from there, differ, and locate them. -/
structure Locates (root : Json) (path : Path) (problems : List Problem) : Prop where
  starts : ∀ problem ∈ problems, path.Starts problem.path
  located : ∀ problem ∈ problems, problem.IsLocated root
  distinct : problems.Pairwise fun p q => p.path ≠ q.path

structure Path.Reaches (path : Path) (root value : Json) : Prop where
  plain : path.IsPlain
  found : follow? root path.steps = some value

section Locates

variable {root value inner : Json} {path : Path} {step : Step} {flaw : Flaw}

theorem Path.IsPlain.push (h : path.IsPlain) (plain : step.IsPlain) : (path.push step).IsPlain := by
  refine ⟨h.base_ne_nil, h.base, ?_⟩
  simpa [Path.push, or_imp, forall_and] using ⟨h.steps, plain⟩

theorem Path.Reaches.push (h : path.Reaches root value) (plain : step.IsPlain)
    (found : step.at? value = some inner) : (path.push step).Reaches root inner where
  plain := h.plain.push plain
  found := by simp [Path.push, follow?_concat, h.found, found]

theorem Path.starts_push {q : Path} (h : (path.push step).Starts q) : path.Starts q :=
  ⟨h.1, (List.prefix_append _ _).trans h.2⟩

theorem Path.Starts.ne {other : Step} {p q : Path} (hp : (path.push step).Starts p)
    (hq : (path.push other).Starts q) (ne : step ≠ other) : p ≠ q := by
  rintro rfl
  obtain ⟨front, hf⟩ := hp.2
  obtain ⟨back, hb⟩ := hq.2
  have same : step = other ∧ front = back := by simpa [Path.push] using hf.trans hb.symm
  exact ne same.1

theorem locates_nil : Locates root path [] := ⟨by simp, by simp, .nil⟩

theorem locates_here (h : path.Reaches root value) (inside : path.steps ≠ [])
    (there : flaw.isMissing = false) : Locates root path [⟨path, flaw⟩] := by
  refine ⟨by simp [Path.Starts], ?_, by simp⟩
  simp only [List.mem_singleton, forall_eq]
  obtain ⟨front, last, steps⟩ := (List.eq_nil_or_concat path.steps).resolve_left inside
  have found := h.found
  rw [List.concat_eq_append] at steps
  rw [steps, follow?_concat, Option.bind_eq_some_iff] at found
  obtain ⟨inner, found, -⟩ := found
  exact ⟨h.plain, front, last, inner, steps, found, by simp [there]⟩

theorem Locates.of_push {problems : List Problem} (h : Locates root (path.push step) problems) :
    Locates root path problems :=
  ⟨fun problem hp => Path.starts_push (h.starts problem hp), h.located, h.distinct⟩

theorem locates_member {name : String} (h : path.Reaches root value)
    (plain : isPlainName name.toList)
    (missing : flaw.isMissing → value.member? name.toList = none) :
    Locates root (path.member name) [⟨path.member name, flaw⟩] := by
  refine ⟨by simp [Path.Starts], ?_, by simp⟩
  simp only [List.mem_singleton, forall_eq]
  exact ⟨h.plain.push plain, path.steps, .member name.toList, value, rfl, h.found, missing⟩

theorem Path.Reaches.member {name : String} (h : path.Reaches root value)
    (plain : isPlainName name.toList)
    (found : value.member? name.toList = some inner) : (path.member name).Reaches root inner :=
  h.push plain found

theorem Locates.append {first second : List Problem} (hf : Locates root path first)
    (hs : Locates root path second) (ne : ∀ p ∈ first, ∀ q ∈ second, p.path ≠ q.path) :
    Locates root path (first ++ second) where
  starts := List.forall_mem_append.mpr ⟨hf.starts, hs.starts⟩
  located := List.forall_mem_append.mpr ⟨hf.located, hs.located⟩
  distinct := List.pairwise_append.mpr ⟨hf.distinct, hs.distinct, ne⟩

theorem Locates.append_three {third : Step} {left middle right : List Problem}
    (hl : Locates root (path.push step) left) (second : Step)
    (hm : Locates root (path.push second) middle) (hr : Locates root (path.push third) right)
    (ne : step ≠ second) (ne' : step ≠ third) (other : second ≠ third) :
    Locates root path (left ++ middle ++ right) := by
  have front : Locates root path (left ++ middle) :=
    hl.of_push.append hm.of_push fun p hp q hq => (hl.starts p hp).ne (hm.starts q hq) ne
  apply front.append hr.of_push
  intro p hp q hq
  rcases List.mem_append.mp hp with hp | hp
  · exact (hl.starts p hp).ne (hr.starts q hq) ne'
  · exact (hm.starts p hp).ne (hr.starts q hq) other

/-- Problems found behind different steps from one path. -/
theorem locates_flatMap {β : Type} {places : List β} {step : β → Step} {found : β → List Problem}
    (distinct : places.Pairwise fun a b => step a ≠ step b)
    (each : ∀ a ∈ places, Locates root (path.push (step a)) (found a)) :
    Locates root path (places.flatMap found) := by
  refine ⟨?_, ?_, ?_⟩
  · rw [List.forall_mem_flatMap]
    intro a ha
    exact (each a ha).of_push.starts
  · rw [List.forall_mem_flatMap]
    intro a ha
    exact (each a ha).located
  · rw [List.pairwise_flatMap]
    refine ⟨fun a ha => (each a ha).distinct, distinct.imp_of_mem ?_⟩
    intro a b ha hb ne p hp q hq
    exact ((each a ha).starts p hp).ne ((each b hb).starts q hq) ne

theorem pairwise_zipIdx (items : List Json) : items.zipIdx.Pairwise fun a b => a.2 < b.2 := by
  have places : (items.zipIdx.map Prod.snd).Pairwise (· < ·) := by
    rw [List.zipIdx_map_snd]
    exact List.pairwise_lt_range'
  exact List.pairwise_map.mp places

theorem locates_items {items : List Json} {found : Json × Nat → List Problem}
    (h : path.Reaches root (.array items))
    (each : ∀ item ∈ items, ∀ place, (path.index place).Reaches root item →
      Locates root (path.index place) (found (item, place))) :
    Locates root path (items.zipIdx.flatMap found) := by
  apply locates_flatMap ((pairwise_zipIdx items).imp fun lt same => lt.ne (Step.index.inj same))
  rintro ⟨item, place⟩ hi
  have there : items[place]? = some item := List.mk_mem_zipIdx_iff_getElem?.mp hi
  have reaches : (path.index place).Reaches root item := h.push trivial there
  exact each item (List.fst_mem_of_mem_zipIdx hi) place reaches

theorem steps_push_ne_nil (path : Path) (step : Step) : (path.push step).steps ≠ [] := by
  simp [Path.push]

theorem locates_coordinateProblems {levels : Nat} (h : path.Reaches root value)
    (inside : path.steps ≠ []) : Locates root path (coordinateProblems levels path value) := by
  induction levels generalizing path value with
  | zero =>
    rw [coordinateProblems]
    split
    · exact locates_nil
    · exact locates_here h inside rfl
  | succ levels ih =>
    cases value with
    | array items =>
      rw [coordinateProblems]
      apply locates_items h
      intro item _ place reaches
      exact ih reaches (steps_push_ne_nil path _)
    | _ => exact locates_here h inside rfl

theorem locates_simpleProblems {name : Text} (h : path.Reaches root value) :
    Locates root path (simpleProblems path name (value.member? "coordinates".toList)) := by
  unfold simpleProblems
  split
  · exact (locates_member h (by decide) (by simp [Flaw.isMissing])).of_push
  · split
    · next there =>
      have reaches := h.member (by decide) there
      exact (locates_coordinateProblems reaches (steps_push_ne_nil path _)).of_push
    · exact (locates_member h (by decide) (by simp [Flaw.isMissing])).of_push
    · next absent => exact (locates_member h (by decide) fun _ => absent).of_push

theorem locates_geometryProblems (h : path.Reaches root value) (inside : path.steps ≠ []) :
    Locates root path (geometryProblems path value) := by
  induction value using geometry_induct generalizing path with
  | step value ih =>
    cases value with
    | object members =>
      rw [geometryProblems_object]
      split
      · split
        · split
          · next geometries listed =>
            apply Locates.of_push
            apply locates_items (h.member (by decide) listed)
            intro geometry hg place reaches
            exact ih geometries listed geometry hg reaches (steps_push_ne_nil _ _)
          · exact (locates_member h (by decide) (by simp [Flaw.isMissing])).of_push
        · exact locates_simpleProblems h
      · exact (locates_member h (by decide) (by simp [Flaw.isMissing])).of_push
      · next absent => exact (locates_member h (by decide) fun _ => absent).of_push
    | _ => exact locates_here h inside rfl

theorem locates_typeProblems (h : path.Reaches root value) :
    Locates root (path.member "type")
      (typeProblems (path.member "type") (value.member? "type".toList)) := by
  unfold typeProblems
  split
  · split
    · exact locates_nil
    · exact locates_member h (by decide) (by simp [Flaw.isMissing])
  · exact locates_member h (by decide) (by simp [Flaw.isMissing])
  · next absent => exact locates_member h (by decide) fun _ => absent

theorem locates_propertyProblems (h : path.Reaches root value) :
    Locates root (path.member "properties")
      (propertyProblems (path.member "properties") (value.member? "properties".toList)) := by
  unfold propertyProblems
  split
  · exact locates_nil
  · exact locates_nil
  · exact locates_member h (by decide) (by simp [Flaw.isMissing])
  · next absent => exact locates_member h (by decide) fun _ => absent

theorem locates_featureProblems (h : path.Reaches root value) (inside : path.steps ≠ []) :
    Locates root path (featureProblems path value) := by
  cases value with
  | object members =>
    rw [featureProblems]
    apply (locates_typeProblems h).append_three (.member "geometry".toList) _
      (locates_propertyProblems h) (by decide) (by decide) (by decide)
    split
    · exact locates_nil
    · next there =>
      exact locates_geometryProblems (h.member (by decide) there) (steps_push_ne_nil path _)
    · next absent => exact locates_member h (by decide) fun _ => absent
  | _ => exact locates_here h inside rfl

end Locates

def listPath : Path := ⟨"features".toList, []⟩

theorem reaches_listPath (features : List Json) :
    listPath.Reaches (.array features) (.array features) where
  plain := ⟨by decide, by decide, List.forall_mem_nil _⟩
  found := rfl

theorem locates_problems (features : List Json) :
    Locates (.array features) listPath (problems features) := by
  rw [problems, problemsFrom_eq]
  apply locates_items (reaches_listPath features)
  intro feature _ place reaches
  exact locates_featureProblems reaches (steps_push_ne_nil listPath _)

/-- The path that the text of a problem spells. -/
def Problem.read (problem : Problem) : Path := Path.read problem.pathText.toList

theorem Problem.IsLocated.read_eq {root : Json} {problem : Problem} (h : problem.IsLocated root) :
    problem.read = problem.path := by
  rw [Problem.read, Problem.pathText, String.toList_ofList, Path.read_text h.plain]

theorem nodup_pathText (features : List Json) :
    ((problems features).map Problem.pathText).Nodup := by
  have locates := locates_problems features
  rw [List.nodup_iff_pairwise_ne, List.pairwise_map]
  apply locates.distinct.imp_of_mem
  intro p q hp hq ne same
  apply ne
  calc p.path = p.read := (locates.located p hp).read_eq.symm
    _ = q.read := by rw [Problem.read, Problem.read, same]
    _ = q.path := (locates.located q hq).read_eq

/-- The elements of a list with problems, once for each problem. -/
def elements (features : List Json) : List Nat :=
  features.zipIdx.flatMap fun item =>
    (featureProblems (featurePath item.2) item.1).map fun _ => item.2

theorem map_head?_read (features : List Json) :
    (problems features).map (fun problem => problem.read.steps.head?) =
      (elements features).map fun place => some (.index place) := by
  rw [elements, problems, problemsFrom_eq, List.map_flatMap, List.map_flatMap]
  apply List.flatMap_congr
  rintro ⟨feature, place⟩ hi
  rw [List.map_map]
  apply List.map_congr_left
  intro problem hp
  have there : features[place]? = some feature := List.mk_mem_zipIdx_iff_getElem?.mp hi
  have reaches : (featurePath place).Reaches (.array features) feature :=
    (reaches_listPath features).push trivial there
  have locates := locates_featureProblems reaches (steps_push_ne_nil listPath _)
  obtain ⟨rest, steps⟩ := (locates.starts problem hp).2
  rw [(locates.located problem hp).read_eq, ← steps]
  rfl

theorem pairwise_elements (features : List Json) : (elements features).Pairwise (· ≤ ·) := by
  rw [elements, List.pairwise_flatMap]
  constructor
  · intro item _
    simp
  · apply (pairwise_zipIdx features).imp
    intro a b lt
    simp only [List.mem_map, forall_exists_index, and_imp]
    rintro _ _ _ rfl _ _ _ rfl
    exact lt.le

theorem mem_elements_iff {features : List Json} {place : Nat} :
    place ∈ elements features ↔
      ∃ feature, features[place]? = some feature ∧ ¬IsFeature feature := by
  constructor
  · intro h
    obtain ⟨⟨feature, index⟩, hi, hp⟩ := List.mem_flatMap.mp h
    obtain ⟨problem, found, rfl⟩ := List.mem_map.mp hp
    refine ⟨feature, List.mk_mem_zipIdx_iff_getElem?.mp hi, fun good => ?_⟩
    rw [featureProblems_eq_nil_iff.mpr good] at found
    cases found
  · rintro ⟨feature, there, bad⟩
    have notEmpty : featureProblems (featurePath place) feature ≠ [] :=
      mt featureProblems_eq_nil_iff.mp bad
    obtain ⟨problem, found⟩ := List.exists_mem_of_ne_nil _ notEmpty
    apply List.mem_flatMap.mpr
    refine ⟨(feature, place), List.mk_mem_zipIdx_iff_getElem?.mpr there, ?_⟩
    exact List.mem_map.mpr ⟨problem, found, rfl⟩

/-- The texts of the paths differ. Read as steps into the list, all but the last lead somewhere, and
the first ones name the elements that do not follow the grammar. -/
theorem paths_locate_problems (features : List Json) :
    ((problems features).map Problem.pathText).Nodup ∧
      (∀ problem ∈ problems features, ∃ front last inner,
        problem.read = ⟨"features".toList, front ++ [last]⟩ ∧
          follow? (.array features) front = some inner ∧
          ("Missing".toList <+: problem.flaw.message.toList → last.at? inner = none)) ∧
      ∃ places : List Nat, places.Pairwise (· ≤ ·) ∧
        (problems features).map (fun problem => problem.read.steps.head?) =
          places.map (fun place => some (.index place)) ∧
        ∀ place, place ∈ places ↔
          ∃ feature, features[place]? = some feature ∧ ¬IsFeature feature := by
  refine ⟨nodup_pathText features, ?_, elements features, pairwise_elements features,
    map_head?_read features, fun _ => mem_elements_iff⟩
  intro problem hp
  have locates := locates_problems features
  have located := locates.located problem hp
  obtain ⟨front, last, inner, steps, found, missing⟩ := located.found
  refine ⟨front, last, inner, ?_, found, fun message => missing (isMissing_of_message message)⟩
  have base : problem.path.base = "features".toList := (locates.starts problem hp).1
  rw [located.read_eq, ← steps, ← base]

def lackingLists : List Json := [withGeometry (gathered [pointAt [6], .object []]), .object []]

def untyped : Problem :=
  ⟨((((featurePath 0).member "geometry").member "geometries").index 1).member "type",
    .missingGeometryType⟩

theorem paths_locate_problems_lackingLists :
    ((problems lackingLists).map Problem.pathText).Nodup ∧ untyped ∈ problems lackingLists ∧
      "Missing".toList <+: untyped.flaw.message.toList ∧
      ∃ front last inner, untyped.read = ⟨"features".toList, front ++ [last]⟩ ∧
        follow? (.array lackingLists) front = some inner ∧ last.at? inner = none := by
  obtain ⟨nodup, located, -⟩ := paths_locate_problems lackingLists
  have second : (problems lackingLists)[1]? = some untyped := rfl
  have there := List.mem_of_getElem? second
  have message : "Missing".toList <+: untyped.flaw.message.toList := by decide
  obtain ⟨front, last, inner, read, found, missing⟩ := located untyped there
  exact ⟨nodup, there, message, front, last, inner, read, found, missing message⟩

example : elements lackingLists = [0, 0, 1, 1, 1] := rfl

end FeatureText.Schema
