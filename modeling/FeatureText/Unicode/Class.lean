import FeatureText.Unicode.Alphabetic
import FeatureText.Unicode.Mark
import FeatureText.Unicode.Number

/-! The character classes that the editor asks for: white space, the letters and numbers of a
word under the cursor, and the wider class that ends a literal. -/
namespace FeatureText.Unicode

def whiteSpace : List CodeRange :=
  [(0x9, 0xD), (0x20, 0x20), (0x85, 0x85), (0xA0, 0xA0), (0x1680, 0x1680), (0x2000, 0x200A),
   (0x2028, 0x2029), (0x202F, 0x202F), (0x205F, 0x205F), (0x3000, 0x3000)]

def connectors : List CodeRange :=
  [(0x5F, 0x5F), (0x203F, 0x2040), (0x2054, 0x2054), (0xFE33, 0xFE34), (0xFE4D, 0xFE4F),
   (0xFF3F, 0xFF3F)]

/-- The two marks that join or keep apart the characters around them. -/
def joinControls : List CodeRange := [(0x200C, 0x200D)]

def isWhiteSpace (c : Char) : Bool := inRanges whiteSpace c

def isAlphanumeric (c : Char) : Bool :=
  inRanges alphabetic c || inRanges decimalDigits c || inRanges otherNumbers c

/-- A literal ends where one of these does not follow. -/
def isWordConstituent (c : Char) : Bool :=
  inRanges alphabetic c || inRanges marks c || inRanges decimalDigits c ||
    inRanges connectors c || inRanges joinControls c

theorem isWhiteSpace_quote : isWhiteSpace '"' = false := by decide

end FeatureText.Unicode
