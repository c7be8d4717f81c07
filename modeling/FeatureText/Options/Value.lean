import FeatureText.Json.Lexeme
import FeatureText.Options.Refused

/-! Reading the values of options, each from the lexemes at the front. -/
namespace FeatureText

namespace Options

abbrev Reading (α : Type) := Except Refused (α × List Lexeme)

def refuse (expected : Expected) : List Lexeme → Refused
  | [] => .unreadable .endInValue
  | lexeme :: _ =>
    match lexeme.content with
    | .scalar value => .wrongType (scalarText value) expected
    | .string value => .wrongType (scalarText (.text value)) expected
    | .opening .square => .wrongType (scalarText (.array [])) expected
    | .opening .brace => .wrongType (scalarText (.object [])) expected
    | .unreadable _ fault _ => .unreadable fault.cause
    | _ => .unreadable .expectedValue

def readCount (expected : Expected) : List Lexeme → Reading Nat
  | lexeme :: rest =>
    match lexeme.content with
    | .scalar (.number (.integer value)) =>
      if 0 ≤ value then .ok (value.toNat, rest) else .error (.negative value expected)
    | _ => .error (refuse expected (lexeme :: rest))
  | [] => .error (refuse expected [])

def readText : List Lexeme → Reading Text
  | lexeme :: rest =>
    match lexeme.content with
    | .string value => .ok (value, rest)
    | _ => .error (refuse .text (lexeme :: rest))
  | [] => .error (refuse .text [])

inductive Turn where
  | opened | afterItem | atItem
deriving DecidableEq, Repr

def readTexts : Turn → List Lexeme → Reading (List Text)
  | .atItem, [] => .error (.unreadable .endInValue)
  | _, [] => .error (.unreadable .endInList)
  | turn, lexeme :: rest =>
    match turn, lexeme.content with
    | .atItem, .closing .square => .error (.unreadable .trailingComma)
    | _, .closing .square => .ok ([], rest)
    | .afterItem, .comma => readTexts .atItem rest
    | .afterItem, _ => .error (.unreadable .expectedCommaOrListEnd)
    | _, .string value =>
      (readTexts .afterItem rest).map fun (texts, rest) => (value :: texts, rest)
    | _, _ => .error (refuse .text (lexeme :: rest))

def readList : List Lexeme → Reading (List Text)
  | lexeme :: rest =>
    match lexeme.content with
    | .opening .square => readTexts .opened rest
    | _ => .error (refuse .list (lexeme :: rest))
  | [] => .error (refuse .list [])

def setting {α : Type} (set : α → Options) (read : Reading α) : Reading Options :=
  read.map fun (value, rest) => (set value, rest)

def readField (o : Options) (lexemes : List Lexeme) : Field → Reading Options
  | .historyLimit => setting ({ o with historyLimit := · }) (readCount .size lexemes)
  | .groupWindow => setting ({ o with groupWindow := · }) (readCount .time lexemes)
  | .emitDelay => setting ({ o with emitDelay := · }) (readCount .time lexemes)
  | .overscan => setting ({ o with overscan := · }) (readCount .size lexemes)
  | .indentWidth => setting ({ o with indentWidth := · }) (readCount .size lexemes)
  | .collapseKeys => setting ({ o with collapseKeys := · }) (readList lexemes)
  | .saveName => setting ({ o with saveName := · }) (readText lexemes)

theorem length_lt_of_readCount {expected : Expected} {lexemes rest : List Lexeme} {value : Nat}
    (h : readCount expected lexemes = .ok (value, rest)) : rest.length < lexemes.length := by
  unfold readCount at h
  grind

theorem length_lt_of_readText {lexemes rest : List Lexeme} {value : Text}
    (h : readText lexemes = .ok (value, rest)) : rest.length < lexemes.length := by
  unfold readText at h
  grind

theorem exists_of_map_eq_ok {ε α β : Type} {f : α → β} {x : Except ε α} {b : β}
    (h : x.map f = .ok b) : ∃ a, x = .ok a ∧ f a = b := by
  match x, h with
  | .ok a, h => exact ⟨a, rfl, Except.ok.inj h⟩

theorem length_lt_of_setting {α : Type} {set : α → Options} {read : Reading α} {o : Options}
    {rest : List Lexeme} {size : Nat} (h : setting set read = .ok (o, rest))
    (shorter : ∀ value, read = .ok (value, rest) → rest.length < size) : rest.length < size := by
  obtain ⟨⟨value, left⟩, hread, heq⟩ := exists_of_map_eq_ok h
  obtain rfl : left = rest := (Prod.mk.inj heq).2
  exact shorter value hread

theorem length_lt_of_readTexts {turn : Turn} {lexemes rest : List Lexeme} {texts : List Text}
    (h : readTexts turn lexemes = .ok (texts, rest)) : rest.length < lexemes.length := by
  fun_induction readTexts turn lexemes generalizing texts
  case case7 ih =>
    obtain ⟨⟨tail, left⟩, hread, heq⟩ := exists_of_map_eq_ok h
    obtain rfl : left = rest := (Prod.mk.inj heq).2
    exact Nat.lt_succ_of_lt (ih hread)
  all_goals grind

theorem length_lt_of_readList {lexemes rest : List Lexeme} {texts : List Text}
    (h : readList lexemes = .ok (texts, rest)) : rest.length < lexemes.length := by
  unfold readList at h
  split at h
  · split at h
    · exact Nat.lt_succ_of_lt (length_lt_of_readTexts h)
    · simp at h
  · simp at h

theorem length_lt_of_readField {o new : Options} {lexemes rest : List Lexeme} {field : Field}
    (h : readField o lexemes field = .ok (new, rest)) : rest.length < lexemes.length := by
  cases field <;> simp only [readField] at h
  case collapseKeys => exact length_lt_of_setting h fun _ => length_lt_of_readList
  case saveName => exact length_lt_of_setting h fun _ => length_lt_of_readText
  all_goals exact length_lt_of_setting h fun _ => length_lt_of_readCount

end Options

end FeatureText
