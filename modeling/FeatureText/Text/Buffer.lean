import FeatureText.Text.Fragment

/-! The document under the cursor: at least one line, and edits that keep it so. Every place handed
to an edit is first moved into the buffer. -/
namespace FeatureText

structure Buffer where
  lines : List Line
  lines_ne_nil : lines ≠ []

namespace Buffer

def ofLines : List Line → Buffer
  | [] => ⟨[[]], by simp⟩
  | line :: lines => ⟨line :: lines, by simp⟩

def empty : Buffer := ofLines []

def ofText (text : Text) : Buffer := ⟨splitLines text, splitLines_ne_nil text⟩

instance : Inhabited Buffer := ⟨empty⟩

@[ext] theorem ext {a b : Buffer} (h : a.lines = b.lines) : a = b := by
  cases a; cases b; simp_all

def text (b : Buffer) : Text := joinLines b.lines

def lineCount (b : Buffer) : Nat := b.lines.length

def line? (b : Buffer) (index : Nat) : Option Line := b.lines[index]?

/-- A line that is not there is empty. -/
def lineAt (b : Buffer) (index : Nat) : Line := b.lines.getD index []

def lineLength (b : Buffer) (index : Nat) : Nat := (b.lineAt index).length

def clamp (b : Buffer) (p : Position) : Position :=
  let line := min p.line (b.lineCount - 1)
  ⟨line, min p.column (b.lineLength line)⟩

def stop (b : Buffer) : Position :=
  let last := b.lineCount - 1
  ⟨last, b.lineLength last⟩

/-- The buffer with a text put in, and the place just past that text. -/
def insert (b : Buffer) (p : Position) (text : Text) : Buffer × Position :=
  let p := b.clamp p
  let head := Fragment.glue (Fragment.before p b.lines) (splitLines text)
  have head_ne_nil : head ≠ [] := Fragment.glue_ne_nil _ (Fragment.before_ne_nil _ _)
  (⟨Fragment.glue head (Fragment.after p b.lines), Fragment.glue_ne_nil _ head_ne_nil⟩,
    Fragment.stop head)

def span (b : Buffer) (p q : Position) : Position × Position :=
  let p := b.clamp p
  let q := b.clamp q
  if p ≤ q then (p, q) else (q, p)

def textBetween (b : Buffer) (p q : Position) : Text :=
  let (start, stop) := b.span p q
  joinLines (Fragment.after start (Fragment.before stop b.lines))

/-- The lines at the two ends become one, so that the earlier place stays where it is. -/
def delete (b : Buffer) (p q : Position) : Buffer :=
  let (start, stop) := b.span p q
  ⟨Fragment.glue (Fragment.before start b.lines) (Fragment.after stop b.lines),
    Fragment.glue_ne_nil _ (Fragment.before_ne_nil _ _)⟩

/-- Puts a text in place of the characters between two columns of one line; the text goes in as it
is, line breaks too. Fails if there is no such line. -/
def replaceInLine? (b : Buffer) (index start stop : Nat) (text : Text) : Option Buffer :=
  if index < b.lineCount then
    some ⟨b.lines.modify index fun line =>
      line.take start ++ text ++ line.drop (max start stop), by
        simpa [← List.length_eq_zero_iff] using b.lines_ne_nil⟩
  else none

@[simp] theorem lines_ofText (text : Text) : (ofText text).lines = splitLines text := rfl

theorem lineCount_pos (b : Buffer) : 0 < b.lineCount :=
  List.length_pos_iff.mpr b.lines_ne_nil

theorem line_clamp_lt (b : Buffer) (p : Position) : (b.clamp p).line < b.lineCount := by
  have := b.lineCount_pos
  simp only [clamp]
  omega

theorem column_clamp_le (b : Buffer) (p : Position) :
    (b.clamp p).column ≤ b.lineLength (b.clamp p).line :=
  Nat.min_le_right ..

end Buffer

end FeatureText
