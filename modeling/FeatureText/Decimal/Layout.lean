import FeatureText.Decimal.Shortest
import FeatureText.Text.Line

/-! How a floating-point number is written. Values between `1e-5` and `1e16` are positional and
always have a fraction; the others have one digit before the point and a signed exponent. -/
namespace FeatureText.Decimal

def zeros (count : Nat) : Text := List.replicate count '0'

def exponentText (exponent : Int) : Text :=
  if exponent < 0 then '-' :: Nat.toDigits 10 exponent.natAbs
  else '+' :: Nat.toDigits 10 exponent.natAbs

def positional (digits : Text) (leading : Int) : Text :=
  if leading < 0 then '0' :: '.' :: zeros (leading.natAbs - 1) ++ digits
  else
    let whole := leading.toNat + 1
    if digits.length ≤ whole then digits ++ zeros (whole - digits.length) ++ ['.', '0']
    else digits.take whole ++ '.' :: digits.drop whole

def scientific (digits : Text) (leading : Int) : Text :=
  match digits with
  | [] => []
  | [digit] => digit :: 'e' :: exponentText leading
  | digit :: more => digit :: '.' :: more ++ 'e' :: exponentText leading

def Scientific.text (d : Scientific) : Text :=
  let digits := Nat.toDigits 10 d.digits
  let leading := d.exponent + digits.length - 1
  if -5 ≤ leading ∧ leading ≤ 15 then positional digits leading else scientific digits leading

/-- The text of a finite float: its sign, then the shortest digits that read back. -/
def floatText (x : Float) : Text :=
  let bits := x.toBits
  let magnitude := Binary.ofBits bits
  let unsigned := if magnitude.significand = 0 then ['0', '.', '0'] else (shortest magnitude).text
  if bits.toNat < 0x8000000000000000 then unsigned else '-' :: unsigned

end FeatureText.Decimal
