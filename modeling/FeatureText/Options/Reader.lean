import FeatureText.Json.Skim
import FeatureText.Options.Value

/-! Options from JSON: an object of some fields by name, or a list of the first few by place. What
is not given keeps its default, and members of other names are passed over. Values are judged as
they are met, so that the first thing wrong is what is reported. -/
namespace FeatureText

namespace Options

/-- The value of a member; one of another name is passed over. -/
def readMember (o : Options) (lexemes : List Lexeme) : Option Field → Reading Options
  | some field => readField o lexemes field
  | none =>
    match Skim.value lexemes with
    | .ok rest => .ok (o, rest)
    | .error cause => .error (.unreadable cause)

def readName (seen : List Field) : List Lexeme → Reading (Option Field)
  | [] => .error (.unreadable .endInValue)
  | lexeme :: rest =>
    match lexeme.content with
    | .string name =>
      match (Field.ofName? name).filter (seen.contains ·) with
      | some field => .error (.repeated field)
      | none =>
        match rest with
        | [] => .error (.unreadable .endInObject)
        | next :: rest =>
          match next.content with
          | .colon => .ok (Field.ofName? name, rest)
          | _ => .error (.unreadable .expectedColon)
    | .unreadable true fault _ => .error (.unreadable fault.cause)
    | .closing .brace => .error (.unreadable .trailingComma)
    | _ => .error (.unreadable .keyNotString)

def readJoint (first : Bool) : List Lexeme → Reading Bool
  | [] => .error (.unreadable .endInObject)
  | lexeme :: rest =>
    match lexeme.content with
    | .closing .brace => .ok (false, rest)
    | .comma => if first then .error (.unreadable .keyNotString) else .ok (true, rest)
    | _ =>
      if first then .ok (true, lexeme :: rest)
      else .error (.unreadable .expectedCommaOrObjectEnd)

theorem length_lt_of_readMember {o new : Options} {lexemes rest : List Lexeme}
    {field : Option Field} (h : readMember o lexemes field = .ok (new, rest)) :
    rest.length < lexemes.length := by
  unfold readMember at h
  split at h
  · exact length_lt_of_readField h
  · split at h
    · next skimmed =>
      obtain rfl := (Prod.mk.inj (Except.ok.inj h)).2
      exact Skim.length_lt_of_run skimmed
    · simp at h

theorem length_lt_of_readName {seen : List Field} {lexemes rest : List Lexeme}
    {field : Option Field} (h : readName seen lexemes = .ok (field, rest)) :
    rest.length < lexemes.length := by
  unfold readName at h
  grind

theorem length_le_of_readJoint {first more : Bool} {lexemes rest : List Lexeme}
    (h : readJoint first lexemes = .ok (more, rest)) : rest.length ≤ lexemes.length := by
  unfold readJoint at h
  grind

def readMembers (first : Bool) (seen : List Field) (o : Options) (lexemes : List Lexeme) :
    Reading Options :=
  match _joint : readJoint first lexemes with
  | .error refused => .error refused
  | .ok (false, rest) => .ok (o, rest)
  | .ok (true, front) =>
    match _name : readName seen front with
    | .error refused => .error refused
    | .ok (field, behind) =>
      match _member : readMember o behind field with
      | .error refused => .error refused
      | .ok (next, rest) => readMembers false (field.toList ++ seen) next rest
termination_by lexemes.length
decreasing_by
  have := length_le_of_readJoint _joint
  have := length_lt_of_readName _name
  have := length_lt_of_readMember _member
  omega

def readListEnd : List Lexeme → Except Refused (List Lexeme)
  | [] => .error (.unreadable .endInList)
  | lexeme :: rest =>
    match lexeme.content, rest.head?.map Lexeme.content with
    | .closing .square, _ => .ok rest
    | .comma, some (.closing .square) => .error (.unreadable .trailingComma)
    | _, _ => .error (.unreadable .trailingCharacters)

def readPlace (first : Bool) : List Lexeme → Reading Bool
  | [] => .error (.unreadable .endInList)
  | lexeme :: rest =>
    match lexeme.content with
    | .closing .square => .ok (false, rest)
    | .comma =>
      if first then .ok (true, lexeme :: rest)
      else
        match rest.head?.map Lexeme.content with
        | none => .error (.unreadable .endInValue)
        | some (.closing .square) => .error (.unreadable .trailingComma)
        | some _ => .ok (true, rest)
    | _ =>
      if first then .ok (true, lexeme :: rest)
      else .error (.unreadable .expectedCommaOrListEnd)

def readPlaces (first : Bool) (o : Options) (lexemes : List Lexeme) :
    List Field → Reading Options
  | [] => (readListEnd lexemes).map (o, ·)
  | field :: fields =>
    match readPlace first lexemes with
    | .error refused => .error refused
    | .ok (false, rest) => .ok (o, rest)
    | .ok (true, rest) =>
      match readField o rest field with
      | .error refused => .error refused
      | .ok (next, rest) => readPlaces false next rest fields

def readLexemes : List Lexeme → Reading Options
  | [] => .error (refuse .options [])
  | lexeme :: rest =>
    match lexeme.content with
    | .opening .brace => readMembers true [] default rest
    | .opening .square => readPlaces true default rest Field.all
    | _ => .error (refuse .options (lexeme :: rest))

def read (text : Text) : Except Refused Options :=
  match readLexemes (Lexeme.lex text) with
  | .error refused => .error refused
  | .ok (o, []) => .ok o
  | .ok (_, _ :: _) => .error (.unreadable .trailingCharacters)

end Options

end FeatureText
