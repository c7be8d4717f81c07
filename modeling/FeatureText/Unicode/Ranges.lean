/-! Character properties are kept as closed ranges of code points, ascending and apart. -/
namespace FeatureText.Unicode

abbrev CodeRange := Nat × Nat

/-- Stops at the first range that lies above the code point. -/
def covered : List CodeRange → Nat → Bool
  | [], _ => false
  | (first, last) :: ranges, code =>
    decide (first ≤ code) && (decide (code ≤ last) || covered ranges code)

def inRanges (ranges : List CodeRange) (c : Char) : Bool :=
  covered ranges c.toNat

end FeatureText.Unicode
