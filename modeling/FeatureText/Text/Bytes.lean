import FeatureText.Text.Line

/-! Sizes and places of a text in its UTF-8 form. -/
namespace FeatureText

def byteSize : Text → Nat
  | [] => 0
  | c :: text => c.utf8Size + byteSize text

def utf8 (text : Text) : List UInt8 := text.flatMap String.utf8EncodeChar

@[simp] theorem byteSize_nil : byteSize [] = 0 := rfl

@[simp] theorem byteSize_cons (c : Char) (text : Text) :
    byteSize (c :: text) = c.utf8Size + byteSize text := rfl

@[simp] theorem byteSize_append (left right : Text) :
    byteSize (left ++ right) = byteSize left + byteSize right := by
  induction left with
  | nil => simp
  | cons c left ih => simp [ih, Nat.add_assoc]

/-- Lines count from one, and a column counts the bytes since the last line feed. -/
structure BytePosition where
  line : Nat
  column : Nat
deriving DecidableEq, Repr

namespace BytePosition

def advance (place : BytePosition) : Text → Nat → BytePosition
  | [], _ => place
  | c :: rest, offset =>
    if offset < c.utf8Size then ⟨place.line, place.column + offset⟩
    else if c = '\n' then advance ⟨place.line + 1, 0⟩ rest (offset - c.utf8Size)
    else advance ⟨place.line, place.column + c.utf8Size⟩ rest (offset - c.utf8Size)

def ofOffset (text : Text) (offset : Nat) : BytePosition :=
  advance ⟨1, 0⟩ text offset

end BytePosition

end FeatureText
