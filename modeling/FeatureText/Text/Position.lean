/-! A place in a buffer is a line and a column, both counted from zero; columns count characters.
Places are ordered as they are met when reading. -/
namespace FeatureText

structure Position where
  line : Nat
  column : Nat
deriving DecidableEq, Repr, Inhabited

namespace Position

def origin : Position := ⟨0, 0⟩

instance : LE Position where
  le p q := p.line < q.line ∨ p.line = q.line ∧ p.column ≤ q.column

instance : LT Position where
  lt p q := p.line < q.line ∨ p.line = q.line ∧ p.column < q.column

theorem le_def {p q : Position} :
    p ≤ q ↔ p.line < q.line ∨ p.line = q.line ∧ p.column ≤ q.column := Iff.rfl

theorem lt_def {p q : Position} :
    p < q ↔ p.line < q.line ∨ p.line = q.line ∧ p.column < q.column := Iff.rfl

theorem lt_irrefl (p : Position) : ¬p < p := by
  rw [lt_def]
  omega

theorem lt_trans {p q r : Position} (h : p < q) (h' : q < r) : p < r := by
  rw [lt_def] at *
  omega

instance (p q : Position) : Decidable (p ≤ q) := decidable_of_iff _ le_def.symm
instance (p q : Position) : Decidable (p < q) := decidable_of_iff _ lt_def.symm

instance : Ord Position where
  compare p q := (compare p.line q.line).then (compare p.column q.column)

instance : Min Position := minOfLe
instance : Max Position := maxOfLe

def label (p : Position) : String := s!"{p.line}:{p.column}"

end Position

/-- The anchor stays and the head follows the cursor; either may come first. -/
structure Selection where
  anchor : Position
  head : Position
deriving DecidableEq, Repr

namespace Selection

def bounds (s : Selection) : Position × Position :=
  if s.anchor ≤ s.head then (s.anchor, s.head) else (s.head, s.anchor)

def isEmpty (s : Selection) : Bool := s.anchor == s.head

/-- A selection whose ends coincide is none. -/
def between (anchor head : Position) : Option Selection :=
  if anchor = head then none else some ⟨anchor, head⟩

end Selection

end FeatureText
