import FeatureText.Proofs.Json.Format
import FeatureText.Proofs.Text.Significant

/-! The significant characters of JSON text. In any layout a value keeps those of the value without
blanks, and so does a text whose literals are spelled as they would be printed. -/
namespace FeatureText

open Significant Lexeme

def isSolidMark (c : Char) : Bool := !Unicode.isWhiteSpace c && c != '"'

theorem isSolidMark_of_isMark {c : Char} (h : Numeral.isMark c) : isSolidMark c := by
  simp only [Numeral.isMark, Numeral.isPart, Bool.or_eq_true, beq_iff_eq] at h
  rcases h with ((((digit | rfl) | rfl) | rfl) | rfl) | rfl
  · rw [Char.isDigit_iff_toNat] at digit
    simp only [Char.reduceToNat] at digit
    have other : c ≠ '"' := by
      rintro rfl
      exact absurd digit.1 (by decide)
    have white : Unicode.isWhiteSpace c = false := by
      simp only [Unicode.isWhiteSpace, Unicode.inRanges, Unicode.whiteSpace, Unicode.covered]
      simp
      omega
    simp [isSolidMark, white, other]
  all_goals decide

theorem isWhiteSpace_of_isBlank {c : Char} (h : isBlank c) : Unicode.isWhiteSpace c := by
  simp only [isBlank, Bool.or_eq_true, decide_eq_true_eq] at h
  rcases h with ((rfl | rfl) | rfl) | rfl <;> decide

/-- The significant characters of a text, whatever follows it. -/
def Condenses (text core : Text) : Prop :=
  ∀ rest, significant (text ++ rest) = core ++ significant rest

namespace Condenses

variable {text other core more : Text}

theorem nil : Condenses [] [] := fun _ => rfl

theorem append (h : Condenses text core) (ho : Condenses other more) :
    Condenses (text ++ other) (core ++ more) := fun rest => by
  rw [List.append_assoc, h, ho, List.append_assoc]

theorem significant_eq (h : Condenses text core) : significant text = core := by
  have whole := h []
  have none : significant [] = [] := rfl
  rwa [List.append_nil, none, List.append_nil] at whole

theorem cons_blank {c : Char} (white : Unicode.isWhiteSpace c) (h : Condenses text core) :
    Condenses (c :: text) core := fun rest => by
  have outside : Where.outside.step c = .outside := by
    rw [outside_step_eq_iff]
    rintro rfl
    exact absurd white (by decide)
  have passes : Where.outside.counts c = false := by simp [Where.counts, white]
  rw [← h rest, significant, List.cons_append, sift, passes, outside]
  rfl

theorem cons_solid {c : Char} (solid : isSolidMark c) (h : Condenses text core) :
    Condenses (c :: text) (c :: core) := fun rest => by
  simp only [isSolidMark, Bool.and_eq_true, Bool.not_eq_true', bne_iff_ne] at solid
  have outside : Where.outside.step c = .outside := outside_step_eq_iff.mpr solid.2
  have counts : Where.outside.counts c := by simp [Where.counts, solid.1]
  rw [List.cons_append, List.cons_append, ← h rest, significant, sift, if_pos counts, outside]
  rfl

theorem append_blank {blank : Text} (white : ∀ c ∈ blank, isBlank c) (h : Condenses text core) :
    Condenses (blank ++ text) core := by
  induction blank with
  | nil => exact h
  | cons c blank ih =>
    obtain ⟨first, rest⟩ := List.forall_mem_cons.mp white
    exact cons_blank (isWhiteSpace_of_isBlank first) (ih rest)

theorem solid (h : ∀ c ∈ text, isSolidMark c) : Condenses text text := by
  induction text with
  | nil => exact nil
  | cons c text ih =>
    obtain ⟨first, rest⟩ := List.forall_mem_cons.mp h
    exact cons_solid first (ih rest)

theorem sift_of_isRaw {raw : Text} (h : Quoted.IsRaw raw) (rest : Text) :
    sift .inside (raw ++ rest) = raw ++ significant rest := by
  have counts (place : Where) (c : Char) (inside : place ≠ .outside) : place.counts c := by
    simp [Where.counts, inside]
  induction h with
  | close => rfl
  | @plain c raw quote backslash _ _ ih =>
    have stays : Where.inside.step c = .inside := by simp [Where.step, quote, backslash]
    rw [List.cons_append, sift, if_pos (counts _ c (by decide)), stays, ih]
    rfl
  | @escape letter raw _ _ ih =>
    have opens : Where.inside.step '\\' = .escaped := rfl
    have closes : Where.escaped.step letter = .inside := rfl
    rw [List.cons_append, List.cons_append, sift, if_pos (counts _ '\\' (by decide)), opens, sift,
      if_pos (counts _ letter (by decide)), closes, ih]
    rfl

theorem literal {raw : Text} (h : Quoted.IsRaw raw) : Condenses ('"' :: raw) ('"' :: raw) :=
  fun rest => by
    have opens : Where.outside.step '"' = .inside := rfl
    have counts : Where.outside.counts '"' := by decide
    rw [List.cons_append, significant, sift, if_pos counts, opens, sift_of_isRaw h]
    rfl

theorem quote (text : Text) : Condenses (Quoted.quote text) (Quoted.quote text) :=
  literal (Quoted.isRaw_of_read (Quoted.read_flatMap_escape true 1 text []))

section Parts

variable {α : Type} {items : List α} {part core : α → Text}

theorem intercalate {blank : Text} (white : ∀ c ∈ blank, isBlank c)
    (h : ∀ item ∈ items, Condenses (part item) (core item)) :
    Condenses ((',' :: blank).intercalate (items.map part))
      ([','].intercalate (items.map core)) := by
  cases items with
  | nil => exact nil
  | cons item items =>
    obtain ⟨first, rest⟩ := List.forall_mem_cons.mp h
    rw [List.map_cons, List.map_cons, intercalate_cons, intercalate_cons, List.flatMap_map,
      List.flatMap_map]
    refine first.append ?_
    clear h first
    induction items with
    | nil => exact nil
    | cons next items ih =>
      obtain ⟨second, others⟩ := List.forall_mem_cons.mp rest
      rw [List.flatMap_cons, List.flatMap_cons]
      exact .append (.cons_solid rfl (append_blank white second)) (ih others)

theorem enclose (bracket : Bracket) {text core : Text} (h : Condenses text core) :
    Condenses (bracket.opening :: text ++ [bracket.closing])
      (bracket.opening :: core ++ [bracket.closing]) := by
  have ends : isSolidMark bracket.opening ∧ isSolidMark bracket.closing := by
    cases bracket <;> decide
  exact .append (.cons_solid ends.1 h) (.cons_solid ends.2 nil)

theorem block (bracket : Bracket) (indent step : Nat)
    (h : ∀ item ∈ items, Condenses (part item) (core item)) :
    Condenses (Json.block bracket indent step (items.map part))
      (bracket.opening :: [','].intercalate (items.map core) ++ [bracket.closing]) := by
  have line : ∀ c ∈ ['\n'], isBlank c := List.forall_mem_singleton.mpr rfl
  have parts : Condenses
      ([',', '\n'].intercalate (items.map fun item => Json.spaces (indent + step) ++ part item))
      ([','].intercalate (items.map core)) :=
    intercalate line fun item hi => append_blank (Json.isBlank_spaces _) (h item hi)
  have last := append_blank line (append_blank (Json.isBlank_spaces indent) nil)
  have inner := parts.append last
  rw [List.append_nil, List.append_nil] at inner
  have whole := enclose bracket (append_blank line inner)
  simpa [Json.block, List.map_map, Function.comp_def] using whole

end Parts

end Condenses

namespace Json

theorem condenses_compact (value : Json) : Condenses value.compact value.compact := by
  have none : ∀ c ∈ ([] : Text), isBlank c := List.forall_mem_nil _
  induction value using Json.induct with
  | null => exact .solid (List.all_eq_true.mp rfl)
  | bool value => cases value <;> exact .solid (List.all_eq_true.mp rfl)
  | number n => exact .solid fun c hc => isSolidMark_of_isMark (n.isMark_text c hc)
  | text value => exact .quote value
  | array items ih =>
    rw [compact, compactItems_eq_map]
    exact .enclose .square (.intercalate none ih)
  | object members ih =>
    rw [compact, compactMembers_eq_map]
    refine .enclose .brace (.intercalate none fun member hm => ?_)
    exact (Condenses.quote member.1).append (.cons_solid rfl (ih member hm))

/-- Formatting a value only adds blanks to the value without any. -/
theorem condenses_format (step indent : Nat) (value : Json) :
    Condenses (value.format step indent) value.compact := by
  induction value using Json.induct generalizing indent with
  | null | bool | number | text => exact condenses_compact _
  | array items ih =>
    rw [format, compact, compactItems_eq_map]
    split
    · rw [formatItems_eq_map]
      exact .block .square indent step fun item hi => ih item hi _
    · exact .enclose .square (.intercalate (List.forall_mem_singleton.mpr rfl)
        fun item _ => condenses_compact item)
  | object members ih =>
    rw [format, compact, compactMembers_eq_map]
    split
    · next none =>
      rw [List.isEmpty_iff.mp none]
      exact .solid (List.all_eq_true.mp rfl)
    · rw [formatMembers_eq_map]
      refine .block .brace indent step fun member hm => ?_
      exact (Condenses.quote member.1).append
        (.cons_solid rfl (.cons_blank rfl (ih member hm _)))

end Json

def Content.printed : Content → Text
  | opening bracket => [bracket.opening]
  | closing bracket => [bracket.closing]
  | colon => [':']
  | comma => [',']
  | scalar value => value.compact
  | string value => Quoted.quote value
  | unreadable .. | stray => []

def Lexeme.isPrinted (l : Lexeme) : Bool :=
  match l.content with
  | .scalar (.number _) | .string _ => l.spelling == l.content.printed
  | _ => true

theorem Content.Spells.condenses {content : Content} {spelling blank : Text} {stops : Char → Bool}
    (h : Spells content spelling stops) (printed : isPrinted ⟨blank, spelling, content⟩) :
    spelling = content.printed ∧ Condenses spelling spelling := by
  cases h with
  | opening bracket => cases bracket <;> exact ⟨rfl, .solid (List.all_eq_true.mp rfl)⟩
  | closing bracket => cases bracket <;> exact ⟨rfl, .solid (List.all_eq_true.mp rfl)⟩
  | colon | comma | nullWord | trueWord | falseWord =>
    exact ⟨rfl, .solid (List.all_eq_true.mp rfl)⟩
  | number written value =>
    exact ⟨beq_iff_eq.mp printed, .solid fun c hc =>
      isSolidMark_of_isMark (Numeral.isMark_spelling written c hc)⟩
  | string h => exact ⟨beq_iff_eq.mp printed, .literal (Quoted.isRaw_of_read (h []))⟩

/-- A text whose literals are spelled as they would be printed condenses to its contents. -/
theorem Spelled.condenses {text : Text} {contents : List Content} (h : Spelled text contents)
    {blank : Text} (printed : ∀ l ∈ lexAfter blank text, l.isPrinted) :
    Condenses text (contents.flatMap Content.printed) ∧
      '\n' ∉ contents.flatMap Content.printed := by
  induction h generalizing blank with
  | nil => exact ⟨.nil, List.not_mem_nil⟩
  | @blank c text contents hc _ ih =>
    rw [lexAfter, if_pos hc] at printed
    obtain ⟨condenses, absent⟩ := ih printed
    exact ⟨.cons_blank (isWhiteSpace_of_isBlank hc) condenses, absent⟩
  | @content content spelling rest stops contents spells avoids _ ih =>
    obtain ⟨c, tail, rfl, solid⟩ := spells.exists_cons
    rw [List.cons_append, lexAfter, if_neg (by simp [solid])] at printed
    dsimp only at printed
    rw [readAt_of_spells spells avoids, List.forall_mem_cons] at printed
    obtain ⟨same, condenses⟩ := spells.condenses printed.1
    obtain ⟨more, absent⟩ := ih printed.2
    rw [List.flatMap_cons, ← same, List.mem_append, not_or]
    exact ⟨condenses.append more, spells.newline_not_mem, absent⟩

theorem Json.printed_contents (value : Json) :
    value.contents.flatMap Content.printed = value.compact := by
  induction value using Json.induct with
  | null => rfl
  | bool value => cases value <;> rfl
  | number n => exact List.append_nil _
  | text value => exact List.append_nil _
  | array items ih =>
    have inner := List.map_congr_left ih
    rw [contents, compact, compactItems_eq_map, contentsOfItems_eq_map, ← inner,
      List.flatMap_cons, List.flatMap_append, flatMap_intercalate, List.map_map]
    rfl
  | object members ih =>
    have inner : members.map (fun member => Quoted.quote member.1 ++ ':' :: member.2.compact) =
        members.map fun member =>
          (Content.string member.1 :: .colon :: member.2.contents).flatMap Content.printed :=
      List.map_congr_left fun member hm => by
        rw [List.flatMap_cons, List.flatMap_cons, ih member hm]
        rfl
    rw [contents, compact, compactMembers_eq_map, contentsOfMembers_eq_map, inner,
      List.flatMap_cons, List.flatMap_append, flatMap_intercalate, List.map_map]
    rfl

theorem Condenses.closes {text core : Text} (h : Condenses text core) (absent : '\n' ∉ core) :
    Closes text := by
  have last : significant ['\n'] = [] := rfl
  rwa [Closes, h, last, List.append_nil]

end FeatureText
