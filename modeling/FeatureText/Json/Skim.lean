import FeatureText.Json.Lexeme

/-! Passing over a value whose content is of no interest. Brackets, commas and colons must be where
they belong, but numbers may be of any size, values may be nested to any depth, and literals only
have to end. -/
namespace FeatureText

namespace Skim

/-- What comes next. The open brackets, innermost first, follow where there are any. -/
inductive Stage where
  | atValue (around : List Bracket)
  | opened (bracket : Bracket) (around : List Bracket)
  | afterPart (bracket : Bracket) (around : List Bracket)
  | atName (around : List Bracket)
  | atColon (around : List Bracket)
deriving DecidableEq, Repr

def finish : List Bracket → Option Stage
  | [] => none
  | bracket :: around => some (.afterPart bracket around)

def missingComma : Bracket → Cause
  | .square => .expectedCommaOrListEnd
  | .brace => .expectedCommaOrObjectEnd

def missingEnd : Bracket → Cause
  | .square => .endInList
  | .brace => .endInObject

def part (bracket : Bracket) (around : List Bracket) : Stage :=
  match bracket with
  | .square => .atValue (.square :: around)
  | .brace => .atName (.brace :: around)

def passValue (around : List Bracket) : Content → Except Cause (Option Stage)
  | .scalar _ | .string _ | .unreadable _ _ none => .ok (finish around)
  | .unreadable _ _ (some dead) => .error dead.cause
  | .opening bracket => .ok (some (.opened bracket around))
  | _ => .error .expectedValue

def passName (around : List Bracket) : Content → Except Cause (Option Stage)
  | .string _ | .unreadable true _ none => .ok (some (.atColon around))
  | .unreadable true _ (some dead) => .error dead.cause
  | _ => .error .keyNotString

def step : Stage → Content → Except Cause (Option Stage)
  | .atValue around, content => passValue around content
  | .opened bracket around, content =>
    match content, bracket with
    | .closing .square, .square | .closing .brace, .brace => .ok (finish around)
    | content, .square => passValue (.square :: around) content
    | content, .brace => passName (.brace :: around) content
  | .afterPart bracket around, content =>
    match content, bracket with
    | .comma, _ => .ok (some (part bracket around))
    | .closing .square, .square | .closing .brace, .brace => .ok (finish around)
    | _, _ => .error (missingComma bracket)
  | .atName around, content => passName around content
  | .atColon around, content =>
    match content with
    | .colon => .ok (some (.atValue around))
    | _ => .error .expectedColon

def causeAtEnd : Stage → Cause
  | .atValue _ => .endInValue
  | .opened bracket _ | .afterPart bracket _ => missingEnd bracket
  | .atName _ | .atColon _ => .endInObject

def run (stage : Stage) : List Lexeme → Except Cause (List Lexeme)
  | [] => .error (causeAtEnd stage)
  | lexeme :: rest =>
    match step stage lexeme.content with
    | .ok (some next) => run next rest
    | .ok none => .ok rest
    | .error cause => .error cause

def value (lexemes : List Lexeme) : Except Cause (List Lexeme) := run (.atValue []) lexemes

theorem length_lt_of_run {stage : Stage} {lexemes rest : List Lexeme}
    (h : run stage lexemes = .ok rest) : rest.length < lexemes.length := by
  fun_induction run stage lexemes <;> grind

end Skim

end FeatureText
