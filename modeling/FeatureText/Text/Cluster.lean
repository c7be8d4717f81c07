import FeatureText.Text.Segmentation
import FeatureText.Unicode.Cluster
import FeatureText.Unicode.Extend

/-! A line is cut into clusters, the characters that a reader perceives as one. Whether a cluster
ends in front of a character depends on that character and on a summary of those before it. -/
namespace FeatureText

namespace Cluster

open Unicode

inductive Role where
  | plain | lineFeed | carriageReturn | control
  | extending | linker | nonJoiner | joiner | spacing | prepended
  | regional | pictograph | consonant
  | leading | vowel | trailing | openSyllable | closedSyllable
deriving DecidableEq, Repr

def emojiModifiers : List CodeRange := [(0x1F3FB, 0x1F3FF)]

def regionalIndicators : List CodeRange := [(0x1F1E6, 0x1F1FF)]

def leadingConsonants : List CodeRange := [(0x1100, 0x115F), (0xA960, 0xA97C)]

def vowels : List CodeRange :=
  [(0x1160, 0x11A7), (0xD7B0, 0xD7C6), (0x16D63, 0x16D63), (0x16D67, 0x16D6A)]

def trailingConsonants : List CodeRange := [(0x11A8, 0x11FF), (0xD7CB, 0xD7FB)]

def syllables : List CodeRange := [(0xAC00, 0xD7A3)]

def roleOf (c : Char) : Role :=
  let code := c.toNat
  if 0x20 ≤ code ∧ code < 0x7F then .plain
  else if code = 0x0A then .lineFeed
  else if code = 0x0D then .carriageReturn
  else if code = 0x200C then .nonJoiner
  else if code = 0x200D then .joiner
  else if inRanges controls c then .control
  else if inRanges conjunctLinkers c then .linker
  else if inRanges graphemeExtend c || inRanges emojiModifiers c then .extending
  else if inRanges prepended c then .prepended
  else if inRanges spacingMarks c then .spacing
  else if inRanges regionalIndicators c then .regional
  else if inRanges leadingConsonants c then .leading
  else if inRanges vowels c then .vowel
  else if inRanges trailingConsonants c then .trailing
  else if inRanges syllables c then
    if (code - 0xAC00) % 28 = 0 then .openSyllable else .closedSyllable
  else if inRanges conjunctConsonants c then .consonant
  else if inRanges pictographs c then .pictograph
  else .plain

/-- How far a pictograph with its marks has come towards joining the next one. -/
inductive Picture where
  | none | marked | joined
deriving DecidableEq, Repr

/-- How far a consonant has come towards forming a conjunct with the next one. -/
inductive Conjunct where
  | none | begun | linked
deriving DecidableEq, Repr

structure Context where
  last : Role
  picture : Picture
  conjunct : Conjunct
  /-- An odd number of regional indicators stands at the end. -/
  halfFlag : Bool
deriving DecidableEq, Repr

def Role.marks : Role → Bool
  | .extending | .linker | .nonJoiner => true
  | _ => false

def nextPicture (before : Picture) (role : Role) : Picture :=
  match role, before with
  | .pictograph, _ => .marked
  | .joiner, .marked => .joined
  | role, .marked => if role.marks then .marked else .none
  | _, _ => .none

def nextConjunct (before : Conjunct) (role : Role) : Conjunct :=
  match role, before with
  | .consonant, _ => .begun
  | _, .none => .none
  | .linker, _ => .linked
  | .extending, state => state
  | .joiner, state => state
  | _, _ => .none

def Context.start (role : Role) : Context :=
  ⟨role, nextPicture .none role, nextConjunct .none role, role == .regional⟩

def Context.push (context : Context) (role : Role) : Context :=
  ⟨role, nextPicture context.picture role, nextConjunct context.conjunct role,
    role == .regional && !context.halfFlag⟩

def Role.breaksLines : Role → Bool
  | .lineFeed | .carriageReturn | .control => true
  | _ => false

def joinsSyllable : Role → Role → Bool
  | .leading, .leading | .leading, .vowel | .leading, .openSyllable
  | .leading, .closedSyllable => true
  | .openSyllable, .vowel | .openSyllable, .trailing | .vowel, .vowel | .vowel, .trailing => true
  | .closedSyllable, .trailing | .trailing, .trailing => true
  | _, _ => false

/-- Whether a character of this role stays in the cluster. -/
def Context.joins (context : Context) (role : Role) : Bool :=
  if context.last = .carriageReturn ∧ role = .lineFeed then true
  else if context.last.breaksLines || role.breaksLines then false
  else
    joinsSyllable context.last role || role.marks || role == .joiner || role == .spacing ||
    context.last == .prepended ||
    (context.conjunct == .linked && role == .consonant) ||
    (context.picture == .joined && role == .pictograph) ||
    (context.halfFlag && role == .regional)

/-- The rest of the cluster in progress, then the clusters behind it. -/
def continued (context : Context) : Line → Line × List Line
  | [] => ([], [])
  | c :: rest =>
    let role := roleOf c
    let (more, clusters) := continued (context.push role) rest
    if context.joins role then (c :: more, clusters) else ([], (c :: more) :: clusters)

def ofLine : Line → List Line
  | [] => []
  | c :: rest =>
    let (more, clusters) := continued (.start (roleOf c)) rest
    (c :: more) :: clusters

theorem flatten_continued (context : Context) (line : Line) :
    (continued context line).1 ++ (continued context line).2.flatten = line := by
  induction line generalizing context with
  | nil => rfl
  | cons c rest ih =>
    have := ih (context.push (roleOf c))
    simp only [continued]
    split <;> simpa using this

theorem flatten_ofLine (line : Line) : (ofLine line).flatten = line := by
  cases line with
  | nil => rfl
  | cons c rest => simpa [ofLine] using flatten_continued (.start (roleOf c)) rest

theorem ne_nil_of_mem_continued {context : Context} {line cluster : Line}
    (h : cluster ∈ (continued context line).2) : cluster ≠ [] := by
  induction line generalizing context with
  | nil => simp [continued] at h
  | cons c rest ih =>
    simp only [continued] at h
    split at h
    · exact ih h
    · rcases List.mem_cons.mp h with h | h
      · simp [h]
      · exact ih h

theorem ne_nil_of_mem_ofLine {line cluster : Line} (h : cluster ∈ ofLine line) :
    cluster ≠ [] := by
  cases line with
  | nil => simp [ofLine] at h
  | cons c rest =>
    rcases List.mem_cons.mp h with h | h
    · simp [h]
    · exact ne_nil_of_mem_continued h

end Cluster

def clusters : Segmentation where
  parts := Cluster.ofLine
  flatten_parts := Cluster.flatten_ofLine
  ne_nil_of_mem_parts := Cluster.ne_nil_of_mem_ofLine

end FeatureText
