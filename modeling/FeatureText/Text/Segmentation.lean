import FeatureText.Text.Line

/-! Lines that are cut into parts. Nothing is lost by cutting and no part is empty; the columns
where parts meet are the places to which a step leads. -/
namespace FeatureText

structure Segmentation where
  parts : Line → List Line
  flatten_parts (line : Line) : (parts line).flatten = line
  ne_nil_of_mem_parts {line part : Line} : part ∈ parts line → part ≠ []

namespace Segmentation

/-- The columns where parts begin, counted from a first column, and the end of the last. -/
def bounds (column : Nat) : List Line → List Nat
  | [] => [column]
  | part :: rest => column :: bounds (column + part.length) rest

variable (s : Segmentation)

def boundaries (line : Line) : List Nat := bounds 0 (s.parts line)

def previous (line : Line) (column : Nat) : Nat :=
  ((s.boundaries line).reverse.find? (· < column)).getD 0

/-- The nearest boundary to the right of a column, or the end of the line. -/
def next (line : Line) (column : Nat) : Nat :=
  ((s.boundaries line).find? (column < ·)).getD line.length

end Segmentation

end FeatureText
