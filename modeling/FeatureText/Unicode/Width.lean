import FeatureText.Unicode.Cell
import FeatureText.Unicode.Extend

/-! How many cells of a fixed grid a character takes. -/
namespace FeatureText.Unicode

/-- Half-width voicing marks extend the character before them in a cell of their own. -/
def halfWidthMarks : List CodeRange := [(0xFF9E, 0xFF9F)]

/-- Controls take no cell, and neither do marks that sit on the character before them; the marks
written as a full letter take two, and one Khmer sign stands for three. -/
def cellWidth (c : Char) : Nat :=
  let code := c.toNat
  if code < 0x20 ∨ 0x7F ≤ code ∧ code < 0xA0 then 0
  else if code < 0x7F then 1
  else if code = 0x17A4 then 2
  else if code = 0x17D8 then 3
  else if inRanges halfWidthMarks c then 1
  else if inRanges graphemeExtend c || inRanges cellless c then 0
  else if inRanges wide c then 2
  else 1

end FeatureText.Unicode
