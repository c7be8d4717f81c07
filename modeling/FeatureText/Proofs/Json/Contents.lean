import FeatureText.Proofs.Json.Spelling

/-! The contents of a text. A text without anything unreadable is spelled by its contents and the
blanks between them; such texts can be put together and taken apart. -/
namespace FeatureText

def contentsOf (text : Text) : List Content := (Lexeme.lex text).map Lexeme.content

open Content Lexeme

/-- The text is the spellings of the contents with blanks between them. -/
inductive Spelled : Text → List Content → Prop where
  | nil : Spelled [] []
  | blank {c : Char} {text : Text} {contents : List Content} (h : isBlank c) :
      Spelled text contents → Spelled (c :: text) contents
  | content {content : Content} {spelling rest : Text} {stops : Char → Bool}
      {contents : List Content} (h : Spells content spelling stops) (avoids : rest.Avoids stops) :
      Spelled rest contents → Spelled (spelling ++ rest) (content :: contents)

theorem Content.Spells.exists_cons {content : Content} {spelling : Text} {stops : Char → Bool}
    (h : Spells content spelling stops) :
    ∃ c tail, spelling = c :: tail ∧ isBlank c = false := by
  cases h with
  | opening bracket | closing bracket => cases bracket <;> exact ⟨_, _, rfl, rfl⟩
  | colon | comma | nullWord | trueWord | falseWord | string => exact ⟨_, _, rfl, rfl⟩
  | @number numeral value written h =>
    have some := Numeral.spelling_ne_nil written.whole.1
    cases hs : numeral.spelling with
    | nil => exact absurd hs some
    | cons c tail =>
      refine ⟨c, tail, rfl, ?_⟩
      have hc := isDigit_or_minus_of_isWritten written hs
      simp only [isBlank, Bool.or_eq_false_iff, decide_eq_false_iff_not]
      refine ⟨⟨⟨?_, ?_⟩, ?_⟩, ?_⟩ <;> (rintro rfl; revert hc; decide)

theorem Content.Spells.newline_not_mem {content : Content} {spelling : Text} {stops : Char → Bool}
    (h : Spells content spelling stops) : '\n' ∉ spelling := by
  cases h with
  | opening bracket | closing bracket => cases bracket <;> decide
  | colon | comma | nullWord | trueWord | falseWord => decide
  | number written h =>
    intro hn
    exact absurd (Numeral.isMark_spelling written _ hn) (by decide)
  | string h =>
    have raw := (Quoted.isRaw_of_read (h [])).not_isControl
    intro hn
    rcases List.mem_cons.mp hn with hn | hn
    · exact absurd hn (by decide)
    · exact absurd (raw _ hn) (by decide)

theorem map_content_lexAfter (blank other text : Text) :
    (lexAfter blank text).map Lexeme.content = (lexAfter other text).map Lexeme.content := by
  fun_induction lexAfter blank text generalizing other with
  | case1 => simp [lexAfter]
  | case2 blank c rest hc ih => rw [lexAfter.eq_2, if_pos hc, ih]
  | case3 blank c rest hc read ih => rw [lexAfter.eq_2, if_neg hc]; rfl

theorem contentsOf_nil : contentsOf [] = [] := by
  simp [contentsOf, lex, lexAfter]

theorem contentsOf_cons_of_isBlank {c : Char} (h : isBlank c) (text : Text) :
    contentsOf (c :: text) = contentsOf text := by
  rw [contentsOf, lex, lexAfter, if_pos h, map_content_lexAfter _ []]
  rfl

theorem contentsOf_cons {c : Char} (h : isBlank c = false) (text : Text) :
    contentsOf (c :: text) = (readAt c text).content :: contentsOf (readAt c text).rest := by
  rw [contentsOf, lex, lexAfter, if_neg (by simp [h])]
  rfl

namespace Spelled

theorem contentsOf_eq {text : Text} {contents : List Content} (h : Spelled text contents) :
    contentsOf text = contents := by
  induction h with
  | nil => exact contentsOf_nil
  | blank h _ ih => rw [contentsOf_cons_of_isBlank h, ih]
  | @content content spelling rest stops contents h avoids _ ih =>
    obtain ⟨c, tail, rfl, solid⟩ := h.exists_cons
    rw [List.cons_append, contentsOf_cons solid, readAt_of_spells h avoids, ih]

theorem of_isReadable {text : Text} (h : ∀ content ∈ contentsOf text, content.isReadable) :
    Spelled text (contentsOf text) := by
  induction hn : text.length using Nat.strong_induction_on generalizing text with
  | _ n ih =>
    cases text with
    | nil => exact contentsOf_nil ▸ .nil
    | cons c rest =>
      cases hc : isBlank c with
      | true =>
        rw [contentsOf_cons_of_isBlank hc] at h ⊢
        exact .blank hc (ih _ (by simp [← hn]) h rfl)
      | false =>
        rw [contentsOf_cons hc, List.forall_mem_cons] at h
        obtain ⟨stops, spells, avoids⟩ := spells_readAt h.1
        have shorter := length_rest_readAt c rest
        rw [contentsOf_cons hc, ← spelling_append_readAt c rest]
        refine .content spells avoids (ih _ ?_ h.2 rfl)
        rw [← hn, List.length_cons]
        omega

theorem exists_spells {text : Text} {contents : List Content} (h : Spelled text contents) :
    ∀ content ∈ contents, ∃ spelling stops, Spells content spelling stops := by
  induction h with
  | nil => simp
  | blank _ _ ih => exact ih
  | content h _ _ ih =>
    intro content hc
    rcases List.mem_cons.mp hc with rfl | hc
    · exact ⟨_, _, h⟩
    · exact ih content hc

theorem append {text other : Text} {contents others : List Content} (h : Spelled text contents)
    (ho : Spelled other others) (avoids : other.Avoids Numeral.isPart) :
    Spelled (text ++ other) (contents ++ others) := by
  induction h with
  | nil => exact ho
  | blank h _ ih => exact .blank h ih
  | @content content spelling rest stops contents h stop _ ih =>
    rw [List.append_assoc, List.cons_append]
    refine .content h ?_ ih
    cases rest with
    | nil => exact avoids.mono fun c hc => h.isPart hc
    | cons c rest => exact stop

theorem split {text : Text} {contents others : List Content}
    (h : Spelled text (contents ++ others)) :
    ∃ front back, text = front ++ back ∧ Spelled front contents ∧ Spelled back others := by
  generalize hall : contents ++ others = all at h
  induction h generalizing contents with
  | nil =>
    obtain ⟨rfl, rfl⟩ := List.append_eq_nil_iff.mp hall
    exact ⟨[], [], rfl, .nil, .nil⟩
  | @blank c text all hc spelled ih =>
    obtain ⟨front, back, rfl, hf, hb⟩ := ih hall
    exact ⟨c :: front, back, rfl, .blank hc hf, hb⟩
  | @content content spelling rest stops all h avoids spelled ih =>
    cases contents with
    | nil =>
      obtain rfl : others = content :: all := hall
      exact ⟨[], spelling ++ rest, rfl, .nil, .content h avoids spelled⟩
    | cons first contents =>
      obtain ⟨rfl, rfl⟩ := List.cons.inj hall
      obtain ⟨front, back, rfl, hf, hb⟩ := ih rfl
      exact ⟨spelling ++ front, back, by simp, .content h avoids.of_append hf, hb⟩

theorem opening (bracket : Bracket) {text : Text} {contents : List Content}
    (h : Spelled text contents) :
    Spelled (bracket.opening :: text) (.opening bracket :: contents) := by
  have := Spelled.content (.opening bracket) (avoids_none _) h
  simpa using this

theorem closing (bracket : Bracket) {text : Text} {contents : List Content}
    (h : Spelled text contents) :
    Spelled (bracket.closing :: text) (.closing bracket :: contents) := by
  have := Spelled.content (.closing bracket) (avoids_none _) h
  simpa using this

theorem colon {text : Text} {contents : List Content} (h : Spelled text contents) :
    Spelled (':' :: text) (.colon :: contents) := by
  have := Spelled.content .colon (avoids_none _) h
  simpa using this

theorem comma {text : Text} {contents : List Content} (h : Spelled text contents) :
    Spelled (',' :: text) (.comma :: contents) := by
  have := Spelled.content .comma (avoids_none _) h
  simpa using this

theorem append_blank {blank text : Text} {contents : List Content} (hb : ∀ c ∈ blank, isBlank c)
    (h : Spelled text contents) : Spelled (blank ++ text) contents := by
  induction blank with
  | nil => exact h
  | cons c blank ih =>
    rw [List.forall_mem_cons] at hb
    exact .blank hb.1 (ih hb.2)

theorem avoids_of_blank {blank text : Text} (hb : ∀ c ∈ blank, isBlank c)
    (h : text.Avoids Numeral.isPart) : Text.Avoids (blank ++ text) Numeral.isPart := by
  cases blank with
  | nil => exact h
  | cons c blank =>
    have hc : isBlank c := hb c List.mem_cons_self
    rw [List.cons_append, Text.avoids_cons, Bool.eq_false_iff]
    intro part
    simp only [isBlank, Bool.or_eq_true, decide_eq_true_eq] at hc
    rcases hc with ((rfl | rfl) | rfl) | rfl <;> exact absurd part (by decide)

theorem append_behind {blank text : Text} {contents : List Content} (h : Spelled text contents)
    (hb : ∀ c ∈ blank, isBlank c) : Spelled (text ++ blank) contents := by
  have alone := append_blank hb .nil
  have stop := avoids_of_blank hb (Text.avoids_nil _)
  rw [List.append_nil] at alone stop
  have both := h.append alone stop
  rwa [List.append_nil] at both

theorem exists_of_cons {text : Text} {content : Content} {contents : List Content}
    (h : Spelled text (content :: contents)) :
    ∃ blank spelling rest stops, text = blank ++ (spelling ++ rest) ∧
      (∀ c ∈ blank, isBlank c) ∧ Spells content spelling stops ∧ rest.Avoids stops ∧
      Spelled rest contents := by
  generalize hc : content :: contents = all at h
  induction h with
  | nil => cases hc
  | @blank c text all hb h ih =>
    obtain ⟨blank, spelling, rest, stops, rfl, all, found⟩ := ih hc
    exact ⟨c :: blank, spelling, rest, stops, rfl, List.forall_mem_cons.mpr ⟨hb, all⟩, found⟩
  | content spells avoids h =>
    obtain ⟨rfl, rfl⟩ := List.cons.inj hc
    exact ⟨[], _, _, _, rfl, by simp, spells, avoids, h⟩

theorem exists_of_cons_opening {text : Text} {bracket : Bracket} {contents : List Content}
    (h : Spelled text (.opening bracket :: contents)) :
    ∃ blank rest, text = blank ++ bracket.opening :: rest ∧ (∀ c ∈ blank, isBlank c) ∧
      Spelled rest contents := by
  obtain ⟨blank, spelling, rest, stops, rfl, all, spells, -, after⟩ := exists_of_cons h
  cases spells
  exact ⟨blank, rest, rfl, all, after⟩

theorem exists_of_cons_closing {text : Text} {bracket : Bracket} {contents : List Content}
    (h : Spelled text (.closing bracket :: contents)) :
    ∃ blank rest, text = blank ++ bracket.closing :: rest ∧ (∀ c ∈ blank, isBlank c) ∧
      Spelled rest contents := by
  obtain ⟨blank, spelling, rest, stops, rfl, all, spells, -, after⟩ := exists_of_cons h
  cases spells
  exact ⟨blank, rest, rfl, all, after⟩

theorem of_blank {c : Char} {text : Text} {contents : List Content} (hc : isBlank c)
    (h : Spelled (c :: text) contents) : Spelled text contents := by
  generalize ht : c :: text = whole at h
  cases h with
  | nil => cases ht
  | blank _ h =>
    obtain ⟨rfl, rfl⟩ := List.cons.inj ht
    exact h
  | content h =>
    obtain ⟨d, tail, rfl, solid⟩ := h.exists_cons
    obtain ⟨rfl, -⟩ := List.cons.inj ht
    exact absurd hc (by simp [solid])

theorem split_newline {text other : Text} {contents : List Content}
    (h : Spelled (text ++ '\n' :: other) contents) :
    ∃ front back, contents = front ++ back ∧ Spelled text front ∧ Spelled other back := by
  generalize hw : text ++ '\n' :: other = whole at h
  induction h generalizing text with
  | nil => simp at hw
  | @blank c rest contents hc h ih =>
    cases text with
    | nil =>
      obtain ⟨rfl, rfl⟩ := List.cons.inj hw
      exact ⟨[], contents, rfl, .nil, h⟩
    | cons d text =>
      obtain ⟨rfl, rfl⟩ := List.cons.inj hw
      obtain ⟨front, back, rfl, hf, hb⟩ := ih rfl
      exact ⟨front, back, rfl, .blank hc hf, hb⟩
  | @content content spelling rest stops contents spells avoids h ih =>
    have inside : ∃ tail, text = spelling ++ tail ∧ rest = tail ++ '\n' :: other := by
      obtain ⟨tail, hs, hr⟩ | ⟨tail, ht, hr⟩ := List.append_eq_append_iff.mp hw
      · cases tail with
        | nil => exact ⟨[], by simpa using hs.symm, hr.symm⟩
        | cons d tail =>
          obtain ⟨rfl, -⟩ := List.cons.inj hr
          exact absurd (by simp [hs]) spells.newline_not_mem
      · exact ⟨tail, ht, hr⟩
    obtain ⟨tail, rfl, rfl⟩ := inside
    obtain ⟨front, back, rfl, hf, hb⟩ := ih rfl
    exact ⟨content :: front, back, rfl, .content spells avoids.of_append hf, hb⟩

theorem nil_iff {text : Text} : Spelled text [] ↔ ∀ c ∈ text, isBlank c := by
  constructor
  · intro h
    generalize hc : ([] : List Content) = contents at h
    induction h with
    | nil => simp
    | blank h _ ih => exact List.forall_mem_cons.mpr ⟨h, ih hc⟩
    | content => cases hc
  · intro h
    simpa using append_blank h .nil

theorem cut_nil {front back : Text} (h : Spelled (front ++ back) []) :
    Spelled front [] ∧ Spelled back [] := by
  rw [nil_iff, List.forall_mem_append] at h
  exact ⟨nil_iff.mpr h.1, nil_iff.mpr h.2⟩

/-- A text with a comma is cut in front of the comma or behind it. -/
theorem cut_comma {front back : Text} (h : Spelled (front ++ back) [.comma]) :
    (Spelled front [] ∧ Spelled back [.comma]) ∨ (Spelled front [.comma] ∧ Spelled back []) := by
  obtain ⟨blank, spelling, rest, stops, same, all, spells, -, after⟩ := exists_of_cons h
  cases spells
  obtain ⟨gap, rfl, split⟩ | ⟨gap, rfl, split⟩ := List.append_eq_append_iff.mp same
  · rw [List.forall_mem_append] at all
    exact .inl ⟨nil_iff.mpr all.1, split ▸ append_blank all.2 (.comma after)⟩
  · cases gap with
    | nil =>
      rw [List.append_nil]
      exact .inl ⟨nil_iff.mpr all, (List.nil_append back).symm.trans split.symm ▸ .comma after⟩
    | cons c gap =>
      obtain ⟨rfl, rfl⟩ := List.cons.inj split
      obtain ⟨inside, behind⟩ := cut_nil after
      exact .inr ⟨append_blank all (.comma inside), behind⟩

theorem avoids {text : Text} {content : Content} {contents : List Content}
    (h : Spelled text (content :: contents)) (other : ∀ value, content ≠ .scalar value) :
    text.Avoids Numeral.isPart := by
  obtain ⟨blank, spelling, rest, stops, rfl, all, spells, -, -⟩ := exists_of_cons h
  refine avoids_of_blank all ?_
  cases spells with
  | opening bracket | closing bracket => cases bracket <;> rfl
  | colon | comma | string => rfl
  | nullWord | trueWord | falseWord | number => exact absurd rfl (other _)

end Spelled

end FeatureText
