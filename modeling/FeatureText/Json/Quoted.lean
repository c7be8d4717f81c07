import FeatureText.Json.Cause
import FeatureText.Text.Bytes

/-! String literals. In front of quotes and backslashes stands a backslash, controls have an
escape, and all else stands for itself. -/
namespace FeatureText

namespace Quoted

def isControl (c : Char) : Bool := c.toNat < 0x20

def escape (c : Char) : Text :=
  if c = '"' then ['\\', '"']
  else if c = '\\' then ['\\', '\\']
  else if c = '\x08' then ['\\', 'b']
  else if c = '\t' then ['\\', 't']
  else if c = '\n' then ['\\', 'n']
  else if c = '\x0c' then ['\\', 'f']
  else if c = '\r' then ['\\', 'r']
  else if isControl c then
    ['\\', 'u', '0', '0', Nat.digitChar (c.toNat / 16), Nat.digitChar (c.toNat % 16)]
  else [c]

def quote (text : Text) : Text := '"' :: text.flatMap escape ++ ['"']

def unescape? (letter : Char) : Option Char :=
  if letter = '"' then some '"'
  else if letter = '\\' then some '\\'
  else if letter = '/' then some '/'
  else if letter = 'b' then some '\x08'
  else if letter = 'f' then some '\x0c'
  else if letter = 'n' then some '\n'
  else if letter = 'r' then some '\r'
  else if letter = 't' then some '\t'
  else none

def hexValue? (c : Char) : Option Nat :=
  if c.isDigit then some (c.toNat - 48)
  else if 'a' ≤ c ∧ c ≤ 'f' then some (c.toNat - 87)
  else if 'A' ≤ c ∧ c ≤ 'F' then some (c.toNat - 55)
  else none

def unit? (a b c d : Char) : Option Nat := do
  let a ← hexValue? a
  let b ← hexValue? b
  let c ← hexValue? c
  let d ← hexValue? d
  return a * 4096 + b * 256 + c * 16 + d

def isLeading (unit : Nat) : Bool := 0xD800 ≤ unit && unit < 0xDC00

def isTrailing (unit : Nat) : Bool := 0xDC00 ≤ unit && unit < 0xE000

def joinPair (leading trailing : Nat) : Char :=
  Char.ofNat (0x10000 + (leading - 0xD800) * 0x400 + (trailing - 0xDC00))

/-- Four bytes are taken for the digits of an escape, whatever they are. -/
def badUnit (reach : Nat) (rest : Text) : Fault :=
  if byteSize rest < 4 then ⟨.endInString, reach + byteSize rest⟩ else ⟨.invalidEscape, reach + 4⟩

structure Literal where
  raw : Text
  value : Text
deriving DecidableEq, Repr

def push (raw value : Text) (read : Except Fault (Literal × Text)) :
    Except Fault (Literal × Text) :=
  read.map fun (literal, rest) => (⟨raw ++ literal.raw, value ++ literal.value⟩, rest)

/-- Reads what follows an opening quote up to the closing one; `reach` bytes have been read. Without
`pairs` each 16-bit unit is taken for a character of its own. -/
def read (pairs : Bool) :
    (leading : Option Nat) → (reach : Nat) → Text → Except Fault (Literal × Text)
  | _, reach, [] => .error ⟨.endInString, reach⟩
  | leading, reach, '\\' :: 'u' :: rest =>
    match rest with
    | a :: b :: c :: d :: rest =>
      let raw := ['\\', 'u', a, b, c, d]
      match unit? a b c d, leading with
      | none, _ => .error (badUnit (reach + 2) (a :: b :: c :: d :: rest))
      | some unit, some high =>
        if isTrailing unit then
          push raw [joinPair high unit] (read pairs none (reach + 6) rest)
        else .error ⟨.loneSurrogate, reach + 6⟩
      | some unit, none =>
        if pairs && isTrailing unit then .error ⟨.loneSurrogate, reach + 6⟩
        else if pairs && isLeading unit then
          push raw [] (read pairs (some unit) (reach + 6) rest)
        else push raw [Char.ofNat unit] (read pairs none (reach + 6) rest)
    | rest => .error (badUnit (reach + 2) rest)
  | some _, reach, c :: rest =>
    if c = '\\' then
      if rest.isEmpty then .error ⟨.endInString, reach + 1⟩
      else .error ⟨.unfinishedSurrogatePair, reach + 2⟩
    else .error ⟨.unfinishedSurrogatePair, reach + 1⟩
  | none, _, '"' :: rest => .ok (⟨['"'], []⟩, rest)
  | none, reach, ['\\'] => .error ⟨.endInString, reach + 1⟩
  | none, reach, '\\' :: letter :: rest =>
    match unescape? letter with
    | some c => push ['\\', letter] [c] (read pairs none (reach + 2) rest)
    | none => .error ⟨.invalidEscape, reach + 2⟩
  | none, reach, c :: rest =>
    if isControl c then .error ⟨.controlCharacter, reach + 1⟩
    else push [c] [c] (read pairs none (reach + c.utf8Size) rest)

theorem push_eq_ok {raw value : Text} {read : Except Fault (Literal × Text)}
    {literal : Literal} {rest : Text} (h : push raw value read = .ok (literal, rest)) :
    ∃ tail, read = .ok (tail, rest) ∧ literal = ⟨raw ++ tail.raw, value ++ tail.value⟩ := by
  match read, h with
  | .ok (tail, _), h =>
    obtain ⟨rfl, rfl⟩ := Prod.mk.inj (Except.ok.inj h)
    exact ⟨tail, rfl, rfl⟩

theorem append_of_push {raw value after rest : Text} {read : Except Fault (Literal × Text)}
    {literal : Literal} (h : push raw value read = .ok (literal, rest)) (some : raw ≠ [])
    (ih : ∀ {tail}, read = .ok (tail, rest) → tail.raw ++ rest = after ∧ tail.raw ≠ []) :
    literal.raw ++ rest = raw ++ after ∧ literal.raw ≠ [] := by
  obtain ⟨tail, hread, rfl⟩ := push_eq_ok h
  simp [(ih hread).1, some]

theorem append_of_read {pairs : Bool} {leading : Option Nat} {reach : Nat} {text rest : Text}
    {literal : Literal} (h : read pairs leading reach text = .ok (literal, rest)) :
    literal.raw ++ rest = text ∧ literal.raw ≠ [] := by
  fun_induction read pairs leading reach text generalizing literal
  all_goals first
    | exact append_of_push h (by simp) (by assumption)
    | grind

end Quoted

end FeatureText
