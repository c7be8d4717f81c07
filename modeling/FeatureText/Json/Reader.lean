import FeatureText.Json.Lexeme

/-! Reading a JSON value from lexemes. The reader is a machine with a stack: what it may meet next,
and the containers that wait for the value in progress to end. -/
namespace FeatureText

/-- A container that waits for a value. The items come last first. -/
inductive Suspended where
  | list (items : List Json)
  | record (members : List (Text × Json)) (name : Text)

/-- What comes next. The stack holds the containers around it, innermost first. -/
inductive Stage where
  | atValue (stack : List Suspended)
  | atItem (first : Bool) (items : List Json) (stack : List Suspended)
  | afterItem (items : List Json) (stack : List Suspended)
  | atName (first : Bool) (members : List (Text × Json)) (stack : List Suspended)
  | atColon (members : List (Text × Json)) (name : Text) (stack : List Suspended)
  | afterMember (members : List (Text × Json)) (stack : List Suspended)
  | done (value : Json)

namespace Stage

def depthLimit : Nat := 127

def finish (value : Json) : List Suspended → Stage
  | [] => .done value
  | .list items :: stack => .afterItem (value :: items) stack
  | .record members name :: stack => .afterMember (putMember name value members) stack

def begin (stack : List Suspended) : Content → Except Fault Stage
  | .opening bracket =>
    if stack.length < depthLimit then
      match bracket with
      | .square => .ok (.atItem true [] stack)
      | .brace => .ok (.atName true [] stack)
    else .error ⟨.tooDeep, 1⟩
  | .scalar value => .ok (finish value stack)
  | .string value => .ok (finish (.text value) stack)
  | .unreadable _ fault _ => .error fault
  | _ => .error ⟨.expectedValue, 1⟩

def step : Stage → Content → Except Fault Stage
  | .atValue stack, content => begin stack content
  | .atItem first items stack, content =>
    match content, first with
    | .closing .square, true => .ok (finish (.array items.reverse) stack)
    | .closing .square, false => .error ⟨.trailingComma, 1⟩
    | content, _ => begin (.list items :: stack) content
  | .afterItem items stack, content =>
    match content with
    | .comma => .ok (.atItem false items stack)
    | .closing .square => .ok (finish (.array items.reverse) stack)
    | _ => .error ⟨.expectedCommaOrListEnd, 1⟩
  | .atName first members stack, content =>
    match content, first with
    | .string name, _ => .ok (.atColon members name stack)
    | .unreadable true fault _, _ => .error fault
    | .closing .brace, true => .ok (finish (.object members) stack)
    | .closing .brace, false => .error ⟨.trailingComma, 1⟩
    | _, _ => .error ⟨.keyNotString, 1⟩
  | .atColon members name stack, content =>
    match content with
    | .colon => .ok (.atValue (.record members name :: stack))
    | _ => .error ⟨.expectedColon, 1⟩
  | .afterMember members stack, content =>
    match content with
    | .comma => .ok (.atName false members stack)
    | .closing .brace => .ok (finish (.object members) stack)
    | _ => .error ⟨.expectedCommaOrObjectEnd, 1⟩
  | .done _, _ => .error ⟨.trailingCharacters, 1⟩

def atEnd : Stage → Except Cause Json
  | .atValue _ => .error .endInValue
  | .atItem true _ _ => .error .endInList
  | .atItem false _ _ => .error .endInValue
  | .afterItem _ _ => .error .endInList
  | .atName true _ _ => .error .endInObject
  | .atName false _ _ => .error .endInValue
  | .atColon _ _ _ => .error .endInObject
  | .afterMember _ _ => .error .endInObject
  | .done value => .ok value

end Stage

/-- Why a text is refused, and how many bytes had been read. -/
structure Refusal where
  cause : Cause
  offset : Nat
deriving DecidableEq, Repr

namespace Json

def run (size offset : Nat) (stage : Stage) : List Lexeme → Except Refusal Json
  | [] =>
    match stage.atEnd with
    | .ok value => .ok value
    | .error cause => .error ⟨cause, size⟩
  | lexeme :: rest =>
    match stage.step lexeme.content with
    | .ok next => run size (offset + lexeme.size) next rest
    | .error fault => .error ⟨fault.cause, offset + byteSize lexeme.blank + fault.reach⟩

/-- A text that holds one value and nothing else. -/
def parse (text : Text) : Except Refusal Json :=
  run (byteSize text) 0 (.atValue []) (Lexeme.lex text)

end Json

def Refusal.message (r : Refusal) (text : Text) : String :=
  let place := BytePosition.ofOffset text r.offset
  s!"{r.cause.message} at line {place.line} column {place.column}"

end FeatureText
