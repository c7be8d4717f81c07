import FeatureText.Bracket.Basic
import FeatureText.Json.Numeral
import FeatureText.Json.Quoted

/-! JSON text as lexemes. The spellings of the lexemes with the blanks in front of them are the text
again, up to blanks at its end. Nothing is read behind a lexeme that no reader could get past. -/
namespace FeatureText

inductive Content where
  | opening (bracket : Bracket)
  | closing (bracket : Bracket)
  | colon
  | comma
  | scalar (value : Json)
  | string (value : Text)
  /-- A literal that stands for no value, and where a reader that only looks for its end stops. -/
  | unreadable (quoted : Bool) (fault : Fault) (dead : Option Fault)
  | stray

structure Lexeme where
  blank : Text
  spelling : Text
  content : Content

namespace Lexeme

def isBlank (c : Char) : Bool := c = ' ' || c = '\n' || c = '\t' || c = '\r'

def size (l : Lexeme) : Nat := byteSize l.blank + byteSize l.spelling

def readWord (reach : Nat) : Text → Text → Except Fault Text
  | [], text => .ok text
  | _ :: _, [] => .error ⟨.endInValue, reach⟩
  | expected :: word, c :: text =>
    if c = expected then readWord (reach + 1) word text else .error ⟨.misspeltWord, reach + 1⟩

/-- A content as it is spelled, and what follows it. -/
structure Reading where
  content : Content
  spelling : Text
  rest : Text

def spent (quoted : Bool) (fault dead : Fault) (text : Text) : Reading :=
  ⟨.unreadable quoted fault (some dead), text, []⟩

def readWholeWord (value : Json) (letter : Char) (word text : Text) : Reading :=
  match readWord 1 word text with
  | .ok rest => ⟨.scalar value, letter :: word, rest⟩
  | .error fault => spent false fault fault (letter :: text)

def readNumber (text : Text) : Reading :=
  match Numeral.read text with
  | .ok (numeral, rest) =>
    match numeral.value with
    | .ok value => ⟨.scalar (.number value), numeral.spelling, rest⟩
    | .error fault => ⟨.unreadable false fault none, numeral.spelling, rest⟩
  | .error fault => spent false fault ⟨.invalidNumber, fault.reach⟩ text

def readString (text : Text) : Reading :=
  match Quoted.read true none 1 text with
  | .ok (literal, rest) => ⟨.string literal.value, '"' :: literal.raw, rest⟩
  | .error fault =>
    match Quoted.read false none 1 text with
    | .ok (literal, rest) => ⟨.unreadable true fault none, '"' :: literal.raw, rest⟩
    | .error dead => spent true fault dead ('"' :: text)

def readAt (c : Char) (rest : Text) : Reading :=
  if c = '"' then readString rest
  else if c = ':' then ⟨.colon, [c], rest⟩
  else if c = ',' then ⟨.comma, [c], rest⟩
  else if c = 'n' then readWholeWord .null c ['u', 'l', 'l'] rest
  else if c = 't' then readWholeWord (.bool true) c ['r', 'u', 'e'] rest
  else if c = 'f' then readWholeWord (.bool false) c ['a', 'l', 's', 'e'] rest
  else if c = '-' ∨ c.isDigit then readNumber (c :: rest)
  else
    match Bracket.ofOpening? c, Bracket.ofClosing? c with
    | some bracket, _ => ⟨.opening bracket, [c], rest⟩
    | none, some bracket => ⟨.closing bracket, [c], rest⟩
    | none, none => ⟨.stray, c :: rest, []⟩

theorem append_of_readWord {reach : Nat} {word text rest : Text}
    (h : readWord reach word text = .ok rest) : word ++ rest = text := by
  fun_induction readWord reach word text <;> grind

theorem spelling_append_readWholeWord (value : Json) (letter : Char) (word text : Text) :
    (readWholeWord value letter word text).spelling ++
      (readWholeWord value letter word text).rest = letter :: text := by
  unfold readWholeWord
  split
  · next h => simpa using append_of_readWord h
  · simp [spent]

theorem spelling_append_readNumber (text : Text) :
    (readNumber text).spelling ++ (readNumber text).rest = text := by
  unfold readNumber
  split
  · next h => split <;> exact (Numeral.append_of_read h).1
  · simp [spent]

theorem spelling_append_readString (text : Text) :
    (readString text).spelling ++ (readString text).rest = '"' :: text := by
  unfold readString
  split
  · next h => simpa using (Quoted.append_of_read h).1
  · split
    · next h => simpa using (Quoted.append_of_read h).1
    · simp [spent]

theorem spelling_append_readAt (c : Char) (rest : Text) :
    (readAt c rest).spelling ++ (readAt c rest).rest = c :: rest := by
  unfold readAt
  repeat' split
  all_goals first
    | next h => subst h; exact spelling_append_readString rest
    | exact spelling_append_readWholeWord _ _ _ rest
    | exact spelling_append_readNumber _
    | simp

theorem spelling_ne_nil_readNumber (c : Char) (text : Text) :
    (readNumber (c :: text)).spelling ≠ [] := by
  unfold readNumber
  split
  · next h => split <;> exact Numeral.spelling_ne_nil (Numeral.append_of_read h).2
  · simp [spent]

theorem spelling_ne_nil_readAt (c : Char) (rest : Text) : (readAt c rest).spelling ≠ [] := by
  unfold readAt readString readWholeWord
  repeat' split
  all_goals first
    | exact spelling_ne_nil_readNumber c rest
    | simp [spent]

theorem length_rest_readAt (c : Char) (rest : Text) :
    (readAt c rest).rest.length ≤ rest.length := by
  have together := congrArg List.length (spelling_append_readAt c rest)
  have some := List.length_pos_iff.mpr (spelling_ne_nil_readAt c rest)
  simp only [List.length_append, List.length_cons] at together
  omega

/-- The lexemes of a text. `blank` was read before it. -/
def lexAfter (blank : Text) : Text → List Lexeme
  | [] => []
  | c :: rest =>
    if isBlank c then lexAfter (blank ++ [c]) rest
    else
      let read := readAt c rest
      ⟨blank, read.spelling, read.content⟩ :: lexAfter [] read.rest
termination_by text => text.length
decreasing_by
  · simp
  · have := length_rest_readAt c rest
    simp only [List.length_cons]
    omega

def lex (text : Text) : List Lexeme := lexAfter [] text

end Lexeme

end FeatureText
