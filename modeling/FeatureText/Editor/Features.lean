import FeatureText.Editor.Emission

/-! The document as a list of features. A write checks all of its input first, and is one step of
the timeline. -/
namespace FeatureText

inductive CollapseRule where
  | keys (keys : List Text)
  | features
  /-- In each feature the outermost nodes with one of the keys chosen for it. -/
  | perFeature (choose : Json → Nat → List Text)
  | unchanged

namespace CollapseRule

def default : CollapseRule := keys [Options.coordinatesKey]

def shown : CollapseRule → Text
  | keys ks => "Keys(".toList ++ Shown.quoteAll ks ++ [')']
  | features => "Root".toList
  | perFeature _ => "PerFeature(..)".toList
  | unchanged => "None".toList

def apply (o : Outline) (ranges : List FeatureRange) (written : List Json) :
    CollapseRule → Outline
  | keys ks => (o.collapseOutermost ks).1
  | features => (o.collapseOutermost [rootKey]).1
  | perFeature choose =>
    ranges.foldl (fun o r =>
      match written[r.index]? with
      | some feature => (o.collapseWithin (choose feature r.index) r.startLine r.stopLine).1
      | none => o) o
  | unchanged => o

end CollapseRule

/-- The place that an index stands for; a negative one counts from the end. -/
def resolveIndex? (index : Int) (length : Nat) : Option Nat :=
  let place := if index < 0 then (length : Int) + index else index
  if 0 ≤ place ∧ place < length then some place.toNat else none

/-- The nearest place for an insertion. -/
def insertionIndex (index : Int) (length : Nat) : Nat :=
  if index < 0 then ((length : Int) + index).toNat else min index.toNat length

def insertAt {α : Type} (items : List α) (place : Nat) (new : List α) : List α :=
  items.take place ++ new ++ items.drop place

structure SavedDocument where
  name : Text
  content : Text
deriving DecidableEq, Repr

namespace Editor

def features (e : Editor) : Except FeatureError (List Json) :=
  match parseFeatures e.buffer.text with
  | .ok features => .ok features
  | .error reason => .error (.invalidDocument reason)

def hiddenFlags (e : Editor) (features : List Json) : List Bool :=
  (Feature.keys features).map e.hidden.contains

def flagged (features : List Json) (flags : List Bool) : HiddenSet :=
  .ofKeys ((((Feature.keys features).zip flags).filter Prod.snd).map Prod.fst)

def recollapse (e : Editor) (written : List Json) : CollapseRule → Editor
  | .unchanged => e
  | rule => refresh { e with outline := rule.apply e.outline.expandAll e.ranges written }

def write (e : Editor) (features : List Json) (hidden : HiddenSet) (rule : CollapseRule) :
    Editor :=
  let e := e.record .write
  let e := settle
    { e with
      buffer := .ofText (formatFeatures e.options.indentWidth features), hidden
      cursor := .origin, selection := none }
  e.recollapse features rule

/-- A call that may be refused. It takes the editor along, so that an error comes with the state in
which it leaves the editor. -/
abbrev Call (α : Type) := ExceptT FeatureError (StateM Editor) α

def call {α : Type} (e : Editor) (c : Call α) : Editor × Except FeatureError α :=
  (c.run.run e).swap

def set (input : Json) (rule : CollapseRule) : Call Unit := do
  let features ← Feature.validated input
  modify fun e => e.write features e.hidden rule

def add (input : Json) (rule : CollapseRule) : Call Unit := do
  let added ← Feature.validated input
  let features ← (← get).features
  modify fun e => e.write (features ++ added) e.hidden rule

/-- Inserts features at the nearest place. Features that move stay hidden. -/
def insertFeatures (input : Json) (index : Int) (rule : CollapseRule) : Call Unit := do
  let inserted ← Feature.validated input
  let features ← (← get).features
  let place := insertionIndex index features.length
  let flags := insertAt ((← get).hiddenFlags features) place (inserted.map fun _ => false)
  let features := insertAt features place inserted
  modify fun e => e.write features (flagged features flags) rule

def removeFeature (index : Int) (rule : CollapseRule) : Call (Option Json) := do
  let features ← (← get).features
  match resolveIndex? index features.length with
  | none => return none
  | some place =>
    let flags := ((← get).hiddenFlags features).eraseIdx place
    let left := features.eraseIdx place
    modify fun e => e.write left (flagged left flags) rule
    return features[place]?

def removeAll (e : Editor) : Editor :=
  settle
    { e.record .write with
      buffer := .empty, cursor := .origin, selection := none, outline := e.outline.expandAll
      hidden := .empty }

/-- All features, hidden ones too; none while the document cannot be read. -/
def getAll (e : Editor) : List Json :=
  match e.features with
  | .ok features => features
  | .error _ => []

def get? (e : Editor) (index : Int) : Option Json :=
  (resolveIndex? index e.getAll.length).bind (e.getAll[·]?)

/-- A file without the hidden features. -/
def save (e : Editor) (name : Option Text) : Except FeatureError SavedDocument := do
  let features ← e.features
  let document := Feature.collection (e.published features)
  return ⟨name.getD e.options.saveName, document.format e.options.indentWidth 0⟩

def defaultRule (e : Editor) : CollapseRule := .keys e.options.collapseKeys

def load (text : Text) : Call Nat := do
  let features ← Feature.readInput text
  modify fun e => e.write features e.hidden e.defaultRule
  return features.length

end Editor

end FeatureText
