import FeatureText.Json.Writer
import FeatureText.Proofs.Json.Parts

/-! What the writers write. On one line or by lines, with any indent, a value is spelled out by its
own contents. -/
namespace FeatureText

open Lexeme

theorem Content.spells_quote (text : Text) :
    Spells (.string text) (Quoted.quote text) fun _ => false := by
  let literal : Quoted.Literal := ⟨text.flatMap Quoted.escape ++ ['"'], text⟩
  have reads (other : Text) :
      Quoted.read true none 1 (literal.raw ++ other) = .ok (literal, other) := by
    rw [List.append_assoc]
    exact Quoted.read_flatMap_escape true 1 text other
  exact .string reads

namespace Spelled

theorem quote (text : Text) : Spelled (Quoted.quote text) [.string text] := by
  have := Spelled.content (Content.spells_quote text) (Text.avoids_nil _) .nil
  rwa [List.append_nil] at this

variable {α : Type} {text : α → Text} {contents : α → List Content} {items : List α}

theorem flatMap_comma {blank : Text} (hb : ∀ c ∈ blank, isBlank c)
    (h : ∀ item ∈ items, Spelled (text item) (contents item)) :
    Spelled (items.flatMap fun item => ',' :: blank ++ text item)
      (items.flatMap fun item => [.comma] ++ contents item) := by
  induction items with
  | nil => exact .nil
  | cons item items ih =>
    rw [List.forall_mem_cons] at h
    rw [List.flatMap_cons, List.flatMap_cons]
    have first : Spelled (',' :: blank ++ text item) ([.comma] ++ contents item) :=
      comma (append_blank hb h.1)
    refine first.append (ih h.2) ?_
    cases items <;> rfl

theorem intercalate {blank : Text} (hb : ∀ c ∈ blank, isBlank c)
    (h : ∀ item ∈ items, Spelled (text item) (contents item)) :
    Spelled ((',' :: blank).intercalate (items.map text))
      ([.comma].intercalate (items.map contents)) := by
  cases items with
  | nil => exact .nil
  | cons item items =>
    rw [List.forall_mem_cons] at h
    rw [List.map_cons, List.map_cons, intercalate_cons, intercalate_cons, List.flatMap_map,
      List.flatMap_map]
    refine h.1.append (flatMap_comma hb h.2) ?_
    cases items <;> rfl

theorem bracketed (bracket : Bracket) {blank : Text} (hb : ∀ c ∈ blank, isBlank c)
    (h : ∀ item ∈ items, Spelled (text item) (contents item)) :
    Spelled (bracket.opening :: (',' :: blank).intercalate (items.map text) ++ [bracket.closing])
      (.opening bracket :: ([.comma].intercalate (items.map contents) ++ [.closing bracket])) := by
  refine opening bracket ((intercalate hb h).append (closing bracket .nil) ?_)
  cases bracket <;> rfl

end Spelled

namespace Json

theorem compactItems_eq_map (items : List Json) : compactItems items = items.map compact := by
  induction items with
  | nil => rfl
  | cons item items ih => rw [compactItems, ih, List.map_cons]

theorem compactMembers_eq_map (members : List (Text × Json)) :
    compactMembers members =
      members.map fun member => Quoted.quote member.1 ++ ':' :: member.2.compact := by
  induction members with
  | nil => rfl
  | cons member members ih => rw [compactMembers, ih, List.map_cons]

theorem formatItems_eq_map (step indent : Nat) (items : List Json) :
    formatItems step indent items = items.map (format step indent) := by
  induction items with
  | nil => rfl
  | cons item items ih => rw [formatItems, ih, List.map_cons]

theorem formatMembers_eq_map (step indent : Nat) (members : List (Text × Json)) :
    formatMembers step indent members =
      members.map fun member =>
        Quoted.quote member.1 ++ ':' :: ' ' :: member.2.format step indent := by
  induction members with
  | nil => rfl
  | cons member members ih => rw [formatMembers, ih, List.map_cons]

theorem isBlank_spaces (count : Nat) : ∀ c ∈ spaces count, isBlank c := by
  intro c hc
  rw [List.eq_of_mem_replicate hc]
  rfl

theorem spelled_member (name : Text) {text : Text} {contents : List Content}
    (h : Spelled text contents) :
    Spelled (Quoted.quote name ++ ':' :: text) (.string name :: .colon :: contents) :=
  (Spelled.quote name).append (.colon h) rfl

/-- A value is spelled out by the contents of the value that is read back. -/
theorem spelled_compact_reread {value : Json} (h : value.HasReadableNumbers) :
    Spelled value.compact value.reread.contents := by
  induction value using Json.induct with
  | null => exact .content .nullWord (Text.avoids_nil _) .nil
  | bool value =>
    cases value with
    | true => exact .content .trueWord (Text.avoids_nil _) .nil
    | false => exact .content .falseWord (Text.avoids_nil _) .nil
  | number n => exact (hasNumbers_number_iff.mp h).spelled
  | text value => exact .quote value
  | array items ih =>
    have inner := hasNumbers_array_iff.mp h
    rw [compact, reread, contents, compactItems_eq_map, contentsOfItems_eq_map,
      rereadItems_eq_map, List.map_map]
    exact .bracketed .square (by simp) fun item hi => ih item hi (inner item hi)
  | object members ih =>
    have inner := hasNumbers_object_iff.mp h
    rw [compact, reread, contents, compactMembers_eq_map, contentsOfMembers_eq_map,
      rereadMembers_eq_map, List.map_map]
    refine .bracketed .brace (by simp) fun member hm => ?_
    exact spelled_member member.1 (ih member hm (inner member hm))

theorem spelled_block {α : Type} (bracket : Bracket) (indent step : Nat) {items : List α}
    {text : α → Text} {contents : α → List Content}
    (h : ∀ item ∈ items, Spelled (text item) (contents item)) :
    Spelled (block bracket indent step (items.map text))
      (.opening bracket :: ([.comma].intercalate (items.map contents) ++ [.closing bracket])) := by
  have parts :
      Spelled ([',', '\n'].intercalate ((items.map text).map (spaces (indent + step) ++ ·)))
        ([.comma].intercalate (items.map contents)) := by
    rw [List.map_map]
    exact .intercalate (List.all_eq_true.mp rfl) fun item hi =>
      .append_blank (isBlank_spaces _) (h item hi)
  have last : Spelled ('\n' :: spaces indent ++ [bracket.closing]) [.closing bracket] :=
    .blank rfl (.append_blank (isBlank_spaces _) (.closing bracket .nil))
  have inner := parts.append last rfl
  have := Spelled.opening bracket (.blank (c := '\n') rfl inner)
  simpa [block] using this

theorem spelled_format_reread (step indent : Nat) {value : Json} (h : value.HasReadableNumbers) :
    Spelled (value.format step indent) value.reread.contents := by
  induction value using Json.induct generalizing indent with
  | null | bool | number | text => exact spelled_compact_reread h
  | array items ih =>
    have inner := hasNumbers_array_iff.mp h
    rw [format, reread, contents, contentsOfItems_eq_map, rereadItems_eq_map, List.map_map]
    split
    · rw [formatItems_eq_map]
      exact spelled_block .square indent step fun item hi => ih item hi _ (inner item hi)
    · exact .bracketed .square (List.all_eq_true.mp rfl) fun item hi =>
        spelled_compact_reread (inner item hi)
  | object members ih =>
    have inner := hasNumbers_object_iff.mp h
    rw [format, reread, contents, contentsOfMembers_eq_map, rereadMembers_eq_map, List.map_map]
    split
    · next none =>
      rw [List.isEmpty_iff.mp none]
      exact .opening .brace (.closing .brace .nil)
    · rw [formatMembers_eq_map]
      refine spelled_block .brace indent step fun member hm => ?_
      exact spelled_member member.1 (.blank rfl (ih member hm _ (inner member hm)))

theorem spelled_compact {value : Json} (h : value.HasExactNumbers) :
    Spelled value.compact value.contents := by
  have := spelled_compact_reread h.hasReadableNumbers
  rwa [reread_eq_self h] at this

theorem spelled_format (step indent : Nat) {value : Json} (h : value.HasExactNumbers) :
    Spelled (value.format step indent) value.contents := by
  have := spelled_format_reread step indent h.hasReadableNumbers
  rwa [reread_eq_self h] at this

def isWritten (c : Char) : Bool := c == '\n' || !Quoted.isControl c

theorem isWritten_of_isMark {c : Char} (h : Numeral.isMark c) : isWritten c := by
  simp only [Numeral.isMark, Numeral.isPart, Bool.or_eq_true, beq_iff_eq] at h
  rcases h with ((((digit | rfl) | rfl) | rfl) | rfl) | rfl
  · rw [Char.isDigit_iff_toNat] at digit
    have : ¬c.toNat < 0x20 := by
      have := digit.1
      simp only [Char.reduceToNat] at this
      omega
    simp [isWritten, Quoted.isControl, this]
  all_goals rfl

theorem isWritten_quote (text : Text) : ∀ c ∈ Quoted.quote text, isWritten c := by
  have raw := (Quoted.isRaw_of_read (Quoted.read_flatMap_escape true 1 text [])).not_isControl
  refine List.forall_mem_cons.mpr ⟨rfl, fun c hc => ?_⟩
  simp [isWritten, raw c hc]

theorem isWritten_spaces (count : Nat) : ∀ c ∈ spaces count, isWritten c := by
  intro c hc
  rw [List.eq_of_mem_replicate hc]
  rfl

theorem isWritten_compact (value : Json) : ∀ c ∈ value.compact, isWritten c := by
  induction value using Json.induct with
  | null => exact List.all_eq_true.mp rfl
  | bool value => cases value <;> exact List.all_eq_true.mp rfl
  | number n => exact fun c hc => isWritten_of_isMark (n.isMark_text c hc)
  | text value => exact isWritten_quote value
  | array items ih =>
    rw [compact, compactItems_eq_map]
    simp only [List.cons_append, List.forall_mem_cons, List.forall_mem_append]
    exact ⟨rfl, forall_mem_intercalate (List.all_eq_true.mp rfl) (List.forall_mem_map.mpr ih), rfl,
      by simp⟩
  | object members ih =>
    rw [compact, compactMembers_eq_map]
    simp only [List.cons_append, List.forall_mem_cons, List.forall_mem_append]
    refine ⟨rfl, forall_mem_intercalate (List.all_eq_true.mp rfl) (List.forall_mem_map.mpr ?_), rfl,
      by simp⟩
    intro member hm
    simp only [List.forall_mem_append, List.forall_mem_cons]
    exact ⟨isWritten_quote member.1, rfl, ih member hm⟩

theorem isWritten_block (bracket : Bracket) (indent step : Nat) {parts : List Text}
    (h : ∀ part ∈ parts, ∀ c ∈ part, isWritten c) :
    ∀ c ∈ block bracket indent step parts, isWritten c := by
  have indented : ∀ part ∈ parts.map (spaces (indent + step) ++ ·), ∀ c ∈ part, isWritten c :=
    List.forall_mem_map.mpr fun part hp =>
      List.forall_mem_append.mpr ⟨isWritten_spaces _, h part hp⟩
  simp only [block, List.cons_append, List.forall_mem_cons, List.forall_mem_append]
  have ends : isWritten bracket.opening ∧ isWritten bracket.closing := by
    cases bracket <;> exact ⟨rfl, rfl⟩
  exact ⟨ends.1, rfl,
    ⟨forall_mem_intercalate (List.all_eq_true.mp rfl) indented, rfl, isWritten_spaces _⟩, ends.2,
    by simp⟩

theorem isWritten_format (step indent : Nat) (value : Json) :
    ∀ c ∈ value.format step indent, isWritten c := by
  induction value using Json.induct generalizing indent with
  | null | bool | number | text => exact isWritten_compact _
  | array items ih =>
    rw [format]
    split
    · rw [formatItems_eq_map]
      refine isWritten_block .square indent step (List.forall_mem_map.mpr ?_)
      exact fun item hi => ih item hi _
    · simp only [List.cons_append, List.forall_mem_cons, List.forall_mem_append]
      refine ⟨rfl, forall_mem_intercalate (List.all_eq_true.mp rfl) (List.forall_mem_map.mpr ?_),
        rfl, by simp⟩
      exact fun item _ => isWritten_compact item
  | object members ih =>
    rw [format]
    split
    · exact List.all_eq_true.mp rfl
    · rw [formatMembers_eq_map]
      refine isWritten_block .brace indent step (List.forall_mem_map.mpr ?_)
      intro member hm
      simp only [List.forall_mem_append, List.forall_mem_cons]
      exact ⟨isWritten_quote member.1, rfl, rfl, ih member hm _⟩

end Json

end FeatureText
