/-! The decimal with the fewest digits that reads back to a binary fraction. The reals that round
to a value form an interval; a decimal is chosen from the coarsest power-of-ten grid with a point
in that interval. -/
namespace FeatureText.Decimal

/-- A positive binary64 value, significand times a power of two. -/
structure Binary where
  significand : Nat
  exponent : Int
  /-- The gap to the value below is half the gap to the value above. -/
  tight : Bool
deriving DecidableEq, Repr

def leadingBit : Nat := 0x10000000000000

def Binary.ofBits (bits : UInt64) : Binary :=
  let exponent : Nat := bits.toNat / leadingBit % 0x800
  let fraction : Nat := bits.toNat % leadingBit
  if exponent = 0 then ⟨fraction, -1074, false⟩
  else ⟨leadingBit + fraction, (exponent : Int) - 1075, fraction == 0 && decide (1 < exponent)⟩

structure Scientific where
  digits : Nat
  exponent : Int
deriving DecidableEq, Repr

def twoTo (exponent : Int) : Nat := Nat.pow 2 exponent.toNat

def tenTo (exponent : Int) : Nat := Nat.pow 10 exponent.toNat

def compareScaled (a : Nat) (i : Int) (n : Nat) (j : Int) : Ordering :=
  compare (a * tenTo i * twoTo (-j)) (n * twoTo j * tenTo (-i))

/-- The decimal lies among the reals that round to the value; the ends of that interval belong to
it exactly if the significand is even. -/
def Binary.admits (x : Binary) (d : Scientific) : Bool :=
  let low := if x.tight then 4 * x.significand - 1 else 4 * x.significand - 2
  let high := 4 * x.significand + 2
  let closed := x.significand % 2 = 0
  let atLow := compareScaled d.digits d.exponent low (x.exponent - 2)
  let atHigh := compareScaled d.digits d.exponent high (x.exponent - 2)
  decide ((atLow = .gt ∨ closed ∧ atLow = .eq) ∧ (atHigh = .lt ∨ closed ∧ atHigh = .eq))

def Binary.quotient (x : Binary) (exponent : Int) : Nat :=
  x.significand * twoTo x.exponent * tenTo (-exponent) / (twoTo (-x.exponent) * tenTo exponent)

def Binary.scale (x : Binary) : Int :=
  let guess := ((x.significand.log2 : Int) + x.exponent) * 30103 / 100000
  let fits := fun k => compareScaled 1 k x.significand x.exponent = .gt
  if fits guess then guess else if fits (guess + 1) then guess + 1 else guess + 2

/-- The neighbour of the value on a grid that reads back, the nearer of two, the even one of two
that are equally near. -/
def Binary.onGrid? (x : Binary) (exponent : Int) : Option Scientific :=
  let below : Scientific := ⟨x.quotient exponent, exponent⟩
  let above : Scientific := ⟨below.digits + 1, exponent⟩
  match x.admits below, x.admits above with
  | false, false => none
  | true, false => some below
  | false, true => some above
  | true, true =>
    match compareScaled (below.digits + above.digits) exponent x.significand (x.exponent + 1) with
    | .gt => some below
    | .lt => some above
    | .eq => some (if below.digits % 2 = 0 then below else above)

def Scientific.trim : Nat → Scientific → Scientific
  | 0, d => d
  | fuel + 1, d =>
    if d.digits % 10 = 0 ∧ d.digits ≠ 0 then trim fuel ⟨d.digits / 10, d.exponent + 1⟩ else d

/-- Seventeen digits always read back. -/
def shortest (x : Binary) : Scientific :=
  let scale := x.scale
  let found := (List.range 17).findSome? fun (count : Nat) => x.onGrid? (scale - 1 - count)
  let chosen := found.getD ⟨x.quotient (scale - 17), scale - 17⟩
  chosen.trim 20

end FeatureText.Decimal
