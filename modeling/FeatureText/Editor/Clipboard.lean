import FeatureText.Editor.Typing

/-! Copy, cut and paste. Features that are pasted are formatted, and get the commas that keep them
apart from their neighbours; any other text goes in as it is. -/
namespace FeatureText

inductive Pasted where
  | features (count : Nat)
  | text
  | nothing
deriving DecidableEq, Repr

namespace Editor

def copy (e : Editor) : Text :=
  match e.selection with
  | some s => if s.isEmpty then e.buffer.text else e.buffer.textBetween s.bounds.1 s.bounds.2
  | none => e.buffer.text

def erase (e : Editor) : Editor :=
  { e with
    buffer := .empty, cursor := .origin, selection := none, outline := e.outline.expandAll }

def cut (e : Editor) : Editor × Text :=
  let copied := e.copy
  if copied.isEmpty then (e, copied)
  else
    let recorded := e.record .cut
    ((if e.hasSelectedText then recorded.removeSelection else recorded.erase).settle, copied)

def trimStart (text : Text) : Text := text.dropWhile Unicode.isWhiteSpace

def trim (text : Text) : Text := (trimStart (trimStart text).reverse).reverse

/-- The features that a text stands for, if it is nothing else. -/
def featuresOf? (text : Text) : Option (List Json) :=
  match Json.parse (trim text) with
  | .error _ => none
  | .ok value =>
    if Feature.isRecognized value then
      match Feature.normalize value with
      | .ok [] | .error _ => none
      | .ok features => some features
    else none

def isSolid (c : Char) : Bool := !Unicode.isWhiteSpace c

def solidBefore? (lines : List Line) (p : Position) : Option Char :=
  (joinLines (Fragment.before p lines)).reverse.find? isSolid

def solidAfter? (lines : List Line) (p : Position) : Option Char :=
  (joinLines (Fragment.after p lines)).find? isSolid

/-- The text of features with commas towards the objects on both sides of a place. -/
def separated (lines : List Line) (p : Position) (text : Text) : Text :=
  (if solidBefore? lines p = some '}' then [',', '\n'] else []) ++ text ++
    (if solidAfter? lines p = some '{' then [','] else [])

def pasteFeatures (e : Editor) (features : List Json) : Editor :=
  let e := (e.record .paste).removeSelection
  let text := formatFeatures e.options.indentWidth features
  (e.place (separated e.buffer.lines e.cursor text)).settle

def paste (e : Editor) (text : Text) : Editor × Pasted :=
  if text.isEmpty then (e, .nothing)
  else
    match featuresOf? text with
    | some features => (e.pasteFeatures features, .features features.length)
    | none => (e.insertAs .paste text, .text)

end Editor

end FeatureText
