import FeatureText.Editor.State

/-! Controls inside the text: a color is changed, a boolean is flipped. -/
namespace FeatureText

namespace Editor

def overwrite {α : Type} (e : Editor) (line : Nat) (found : Inline.Found α) (text : Text) :
    Editor :=
  let e := e.record .inlineEdit
  let buffer := (e.buffer.replaceInLine? line found.start found.stop text).getD e.buffer
  settle { e with buffer, cursor := buffer.clamp e.cursor }

def colorAt? (e : Editor) (line index : Nat) : Option (Inline.Found Text) :=
  (e.metas[line]?).bind (·.colors[index]?)

def booleanAt? (e : Editor) (line index : Nat) : Option (Inline.Found Bool) :=
  (e.metas[line]?).bind (·.booleans[index]?)

def setColor (e : Editor) (line index : Nat) (value : Text) : Editor × Bool :=
  match e.colorAt? line index with
  | some found =>
    if Inline.isColor value && found.value != value then (e.overwrite line found value, true)
    else (e, false)
  | none => (e, false)

def flipBoolean (e : Editor) (line index : Nat) : Editor × Bool :=
  match e.booleanAt? line index with
  | some found =>
    let text := if found.value then ['f', 'a', 'l', 's', 'e'] else ['t', 'r', 'u', 'e']
    (e.overwrite line found text, true)
  | none => (e, false)

end Editor

end FeatureText
