import FeatureText.Text.Line
import FeatureText.Text.Position

/-! A fragment is text cut into lines that need not begin or end with a line break. Gluing two
fragments joins the last line of one to the first line of the other, as appending their texts
does. -/
namespace FeatureText

namespace Fragment

def glue : List Line → List Line → List Line
  | [], right => right
  | [line], [] => [line]
  | [line], first :: more => (line ++ first) :: more
  | line :: next :: left, right => line :: glue (next :: left) right

def stop : List Line → Position
  | [] => .origin
  | [line] => ⟨0, line.length⟩
  | _ :: next :: lines => ⟨(stop (next :: lines)).line + 1, (stop (next :: lines)).column⟩

def before (p : Position) (lines : List Line) : List Line :=
  lines.take p.line ++ [(lines.getD p.line []).take p.column]

def after (p : Position) (lines : List Line) : List Line :=
  (lines.getD p.line []).drop p.column :: lines.drop (p.line + 1)

theorem before_ne_nil (p : Position) (lines : List Line) : before p lines ≠ [] := by
  simp [before]

theorem after_ne_nil (p : Position) (lines : List Line) : after p lines ≠ [] := by
  simp [after]

theorem glue_ne_nil {left : List Line} (right : List Line) (h : left ≠ []) :
    glue left right ≠ [] := by
  fun_cases glue left right <;> simp_all

@[simp] theorem glue_singleton_cons (line first : Line) (more : List Line) :
    glue [line] (first :: more) = (line ++ first) :: more := rfl

theorem glue_cons_of_ne_nil (line : Line) {left : List Line} (right : List Line)
    (h : left ≠ []) : glue (line :: left) right = line :: glue left right := by
  cases left with
  | nil => exact absurd rfl h
  | cons => rfl

end Fragment

end FeatureText
