import FeatureText.Unicode.Class
import FeatureText.View.NamedColor

/-! Values that can be changed in place: on one line, a quoted key, a colon, and behind it a quoted
color or a bare boolean. The line is searched from the left, and the search goes on behind each
value found. -/
namespace FeatureText

namespace Inline

def isHexDigit (c : Char) : Bool :=
  c.isDigit || ('a' ≤ c && c ≤ 'f') || ('A' ≤ c && c ≤ 'F')

def isHexColor : Text → Bool
  | '#' :: digits => (digits.length == 3 || digits.length == 6) && digits.all isHexDigit
  | _ => false

def isColorName (value : Text) : Bool :=
  namedColors.contains (String.ofList (value.map Char.toLower))

def isColor (value : Text) : Bool :=
  match value with
  | '#' :: _ => isHexColor value
  | _ => isColorName value

/-- What may be part of a key: a key has no escapes. -/
def isKeyChar (c : Char) : Bool := c != '"' && c != '\\'

def skipBlank (text : Line) : Line := text.dropWhile Unicode.isWhiteSpace

/-- A quoted key and a colon at the front, and what follows them and the blanks behind. -/
def keyAt? : Line → Option (Text × Line)
  | '"' :: rest =>
    let key := rest.takeWhile isKeyChar
    match rest.drop key.length with
    | '"' :: rest =>
      match skipBlank rest with
      | ':' :: rest => if key.isEmpty then none else some (key, skipBlank rest)
      | _ => none
    | _ => none
  | _ => none

/-- A value on a line: its key, itself, and where it starts and stops. -/
structure Found (α : Type) where
  key : Text
  value : α
  start : Nat
  stop : Nat
deriving DecidableEq, Repr

/-- Searches a line; `skip` characters belong to the last value found. -/
def search {α : Type} (read : Line → Option (Found α × Nat)) :
    (skip column : Nat) → Line → List (Found α)
  | _, _, [] => []
  | skip + 1, column, _ :: rest => search read skip (column + 1) rest
  | 0, column, c :: rest =>
    match read (c :: rest) with
    | some (found, length) =>
      ⟨found.key, found.value, column + found.start, column + found.stop⟩ ::
        search read (length - 1) (column + 1) rest
    | none => search read 0 (column + 1) rest

def isLetter (c : Char) : Bool := c.isAlpha

def looksLikeColor (value : Text) : Bool :=
  isHexColor value || (!value.isEmpty && value.all isLetter)

def colorAt? (line : Line) : Option (Found Text × Nat) := do
  let (key, rest) ← keyAt? line
  match rest with
  | '"' :: rest =>
    let value := rest.takeWhile isKeyChar
    if (rest.drop value.length).head? = some '"' ∧ looksLikeColor value then
      let start := line.length - rest.length
      some (⟨key, value, start, start + value.length⟩, start + value.length + 1)
    else none
  | _ => none

/-- The colors on a line. Words that name no color are passed over. -/
def colors (line : Line) : List (Found Text) :=
  (search colorAt? 0 0 line).filter fun found => isColor found.value

def literal? (line : Line) : Option (Bool × Nat × Line) :=
  match line with
  | 't' :: 'r' :: 'u' :: 'e' :: rest => some (true, 4, rest)
  | 'f' :: 'a' :: 'l' :: 's' :: 'e' :: rest => some (false, 5, rest)
  | _ => none

def atWordEnd (rest : Line) : Bool := !(rest.head?.any Unicode.isWordConstituent)

def booleanAt? (line : Line) : Option (Found Bool × Nat) := do
  let (key, rest) ← keyAt? line
  let (value, length, after) ← literal? rest
  if atWordEnd after then
    let start := line.length - rest.length
    some (⟨key, value, start, start + length⟩, start + length)
  else none

def booleans (line : Line) : List (Found Bool) := search booleanAt? 0 0 line

end Inline

end FeatureText
