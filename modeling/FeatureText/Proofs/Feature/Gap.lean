import FeatureText.Editor.Clipboard
import FeatureText.Proofs.Feature.Range

/-! Places between objects. A text of a list that is cut outside of its objects is cut next to a
comma or at an end, and the nearest solid characters on both sides tell which commas new items
need. -/
namespace FeatureText

open Lexeme Editor

/-- A text of a list is cut between two of its items, in front of the comma or behind it, or at an
end of the list. -/
inductive Gap (front back : Text) : List Json → List Json → Prop where
  | start {items : List Json} (hf : Spelled front []) (hb : Spelled back (listed items)) :
      Gap front back [] items
  | comma {items others : List Json} (filled : items ≠ []) (hf : Spelled front (listed items))
      (hb : Spelled back (trailed others)) : Gap front back items others
  | behind {items others : List Json} (filled : items ≠ []) (more : others ≠ [])
      (hf : Spelled front (listed items ++ [.comma])) (hb : Spelled back (listed others)) :
      Gap front back items others

namespace FeatureRange

theorem cut_around {p : Position} {lead inner rest front back : Text}
    (same : front ++ back = lead ++ ('{' :: inner ++ ['}']) ++ rest)
    (outside : ¬(p.advance lead < p.advance front ∧
      p.advance front ≤ p.advance (lead ++ '{' :: inner))) :
    (∃ gap, lead = front ++ gap ∧ back = gap ++ ('{' :: inner ++ ['}']) ++ rest) ∨
      ∃ more, front = lead ++ ('{' :: inner ++ ['}']) ++ more ∧ rest = more ++ back := by
  obtain ⟨begun, whole, rfl⟩ | ⟨more, rfl, rfl⟩ := List.append_eq_append_iff.mp same
  · obtain ⟨inside, rfl, object⟩ | ⟨gap, rfl, rfl⟩ := List.append_eq_append_iff.mp whole
    · by_cases none : inside = []
      · subst none
        exact .inl ⟨[], by simp, by simp [object]⟩
      · obtain rfl | ⟨most, last, rfl⟩ := begun.eq_nil_or_concat
        · exact .inr ⟨[], by simp [object], rfl⟩
        · rw [List.concat_eq_append, ← List.append_assoc] at object
          have all : '{' :: inner = inside ++ most := (List.append_inj' object rfl).1
          refine absurd ⟨?_, ?_⟩ outside
          · rw [Position.advance_append]
            exact Position.lt_advance _ none
          · rw [all, ← List.append_assoc, Position.advance_append _ (lead ++ inside)]
            exact Position.le_advance _ _
    · exact .inl ⟨gap, rfl, rfl⟩
  · exact .inr ⟨more, rfl, rfl⟩

theorem spelled_object {lead inner rest : Text} {before more : List Content}
    {members : List (Text × Json)} (hl : Spelled lead before)
    (hi : Spelled inner ([.comma].intercalate (Json.contentsOfMembers members)))
    (hr : Spelled rest more) :
    Spelled (lead ++ ('{' :: inner ++ ['}']) ++ rest)
      (before ++ ((Json.object members).contents ++ more)) := by
  have := hl.append (.opening .brace (hi.append (.closing .brace hr) rfl)) rfl
  simpa [Json.contents, Bracket.opening, Bracket.closing] using this

theorem Laid.le_stop {p : Position} {text : Text} {raws : List Json}
    {places : List (Position × Position)} (h : Laid p text raws places) :
    ∀ o ∈ places, p ≤ o.2 := by
  induction h with
  | nil => simp
  | @cons p lead inner rest raw raws places spelled _ ih =>
    refine List.forall_mem_cons.mpr ⟨p.le_advance _, fun o ho => ?_⟩
    exact Position.le_trans (p.le_advance _) (ih o ho)

theorem cut_first {raw : Json} {raws : List Json} (object : raw.isObject) {p : Position}
    {front back : Text} {before : List Content} (passed : IsPassedOver before)
    (h : Spelled (front ++ back) (before ++ (raw.contents ++ trailed raws)))
    {places : List (Position × Position)}
    (found : outerObjects 0 none (Token.placedAt p (front ++ back)) = some places)
    (outside : ∀ o ∈ places, ¬(o.1 < p.advance front ∧ p.advance front ≤ o.2)) :
    (∃ gap, Spelled (front ++ gap) before ∧
      (∀ contents, Spelled gap contents →
        Spelled back (contents ++ (raw.contents ++ trailed raws))) ∧
      places.countP (fun o => o.2 < p.advance front) = 0) ∨
    ∃ q more others, Spelled (more ++ back) (trailed raws) ∧
      (∀ contents, Spelled more contents → Spelled front (before ++ (raw.contents ++ contents))) ∧
      q.advance more = p.advance front ∧
      outerObjects 0 none (Token.placedAt q (more ++ back)) = some others ∧
      (∀ o ∈ others, o ∈ places) ∧
      places.countP (fun o => o.2 < p.advance front) =
        others.countP (fun o => o.2 < p.advance front) + 1 := by
  obtain ⟨members, rfl⟩ := Json.isObject_iff.mp object
  obtain ⟨lead, inner, rest, same, hl, hi, hr⟩ := exists_bracketed h
  rw [same, outerObjects_bracketed .brace hl passed hi (Json.nested_members members),
    Option.map_eq_some_iff] at found
  obtain ⟨others, found, rfl⟩ := found
  rw [if_pos rfl] at outside ⊢
  rcases cut_around same (outside _ List.mem_cons_self) with ⟨gap, rfl, rfl⟩ | ⟨more, rfl, rfl⟩
  · refine .inl ⟨gap, hl, fun contents hg => spelled_object hg hi hr, ?_⟩
    obtain ⟨places, again, laid⟩ := exists_laid_trailed _ isPassedOver_nil hr
    obtain rfl := Option.some.inj (found.symm.trans again)
    have behind (text : Text) : p.advance front ≤ p.advance (front ++ text) := by
      rw [Position.advance_append]
      exact Position.le_advance _ _
    refine List.countP_eq_zero.mpr (List.forall_mem_cons.mpr ⟨?_, fun o ho => ?_⟩)
    · simpa using Position.not_lt.mpr (behind _)
    · have le := laid.le_stop o ho
      rw [List.append_assoc front] at le
      simpa using Position.not_lt.mpr (Position.le_trans (behind _) le)
  · refine .inr ⟨_, more, others, hr, fun contents hm => spelled_object hl hi hm,
      (Position.advance_append ..).symm, found, fun o ho => List.mem_cons_of_mem _ ho, ?_⟩
    refine List.countP_cons_of_pos (decide_eq_true ?_)
    have split : lead ++ ('{' :: inner ++ ['}']) ++ more =
        lead ++ '{' :: inner ++ '}' :: more := by simp
    rw [split, Position.advance_append _ (lead ++ _)]
    exact Position.lt_advance _ (by simp)

theorem exists_gap_trailed {raws : List Json} (objects : ∀ raw ∈ raws, raw.isObject)
    {p : Position} {front back : Text} (h : Spelled (front ++ back) (trailed raws))
    {places : List (Position × Position)}
    (found : outerObjects 0 none (Token.placedAt p (front ++ back)) = some places)
    (outside : ∀ o ∈ places, ¬(o.1 < p.advance front ∧ p.advance front ≤ o.2)) :
    ∃ items others, raws = items ++ others ∧
      items.length = places.countP (fun o => o.2 < p.advance front) ∧
      ((Spelled front (trailed items) ∧ Spelled back (trailed others)) ∨
        (others ≠ [] ∧ Spelled front (trailed items ++ [.comma]) ∧
          Spelled back (listed others))) := by
  induction raws generalizing p front places with
  | nil =>
    have nothing := isPassedOver_nil h p []
    rw [List.append_nil, found] at nothing
    obtain rfl := Option.some.inj nothing
    exact ⟨[], [], rfl, rfl, .inl h.cut_nil⟩
  | cons raw raws ih =>
    rw [List.forall_mem_cons] at objects
    rw [trailed_cons, listed_cons, ← List.singleton_append] at h
    rcases cut_first objects.1 isPassedOver_comma h found outside with
      ⟨gap, hl, hb, none⟩ | ⟨q, more, others, hr, hf, same, found, among, count⟩
    · refine ⟨[], raw :: raws, rfl, none.symm, ?_⟩
      rcases hl.cut_comma with ⟨hf, hg⟩ | ⟨hf, hg⟩
      · refine .inl ⟨hf, ?_⟩
        rw [trailed_cons, listed_cons]
        exact hb _ hg
      · refine .inr ⟨by simp, hf, ?_⟩
        rw [listed_cons]
        exact hb _ hg
    · obtain ⟨items, left, rfl, length, sides⟩ := ih objects.2 hr found fun o ho =>
        same ▸ outside o (among o ho)
      refine ⟨raw :: items, left, rfl, ?_, ?_⟩
      · rw [count, ← same, ← length, List.length_cons]
      · rw [trailed_cons, listed_cons, ← List.singleton_append]
        rcases sides with ⟨hm, hb⟩ | ⟨some, hm, hb⟩
        · exact .inl ⟨hf _ hm, hb⟩
        · refine .inr ⟨some, ?_, hb⟩
          simpa using hf _ hm

/-- A place outside of all objects is in a gap, with those in front of it that end there. -/
theorem exists_gap {raws : List Json} (objects : ∀ raw ∈ raws, raw.isObject)
    {p : Position} {front back : Text} (h : Spelled (front ++ back) (listed raws))
    {places : List (Position × Position)}
    (found : outerObjects 0 none (Token.placedAt p (front ++ back)) = some places)
    (outside : ∀ o ∈ places, ¬(o.1 < p.advance front ∧ p.advance front ≤ o.2)) :
    ∃ items others, raws = items ++ others ∧
      items.length = places.countP (fun o => o.2 < p.advance front) ∧
      Gap front back items others := by
  cases raws with
  | nil =>
    have nothing := isPassedOver_nil h p []
    rw [List.append_nil, found] at nothing
    obtain rfl := Option.some.inj nothing
    exact ⟨[], [], rfl, rfl, .start h.cut_nil.1 h.cut_nil.2⟩
  | cons raw raws =>
    rw [List.forall_mem_cons] at objects
    rw [listed_cons, ← List.nil_append (raw.contents ++ _)] at h
    rcases cut_first objects.1 isPassedOver_nil h found outside with
      ⟨gap, hl, hb, none⟩ | ⟨q, more, others, hr, hf, same, found, among, count⟩
    · refine ⟨[], raw :: raws, rfl, none.symm, .start hl.cut_nil.1 ?_⟩
      rw [listed_cons]
      exact hb _ hl.cut_nil.2
    · obtain ⟨items, left, rfl, length, sides⟩ := exists_gap_trailed objects.2 hr found fun o ho =>
        same ▸ outside o (among o ho)
      refine ⟨raw :: items, left, rfl, by rw [count, ← same, ← length, List.length_cons], ?_⟩
      rcases sides with ⟨hm, hb⟩ | ⟨some, hm, hb⟩
      · refine .comma (by simp) ?_ hb
        rw [listed_cons]
        exact hf _ hm
      · refine .behind (by simp) some ?_ hb
        rw [listed_cons, List.append_assoc]
        exact hf _ hm

end FeatureRange

theorem isSolid_of_isBlank {c : Char} (h : isBlank c) : isSolid c = false := by
  simp only [isBlank, Bool.or_eq_true, decide_eq_true_eq] at h
  rcases h with ((rfl | rfl) | rfl) | rfl <;> decide

def Content.sign? : Content → Option Char
  | .opening bracket => some bracket.opening
  | .closing bracket => some bracket.closing
  | .colon => some ':'
  | .comma => some ','
  | _ => none

theorem Content.Spells.eq_sign {content : Content} {spelling : Text} {stops : Char → Bool}
    (h : Spells content spelling stops) {c : Char} (sign : content.sign? = some c) :
    spelling = [c] ∧ isSolid c := by
  cases h <;> cases sign
  case opening bracket | closing bracket => cases bracket <;> exact ⟨rfl, by decide⟩
  all_goals exact ⟨rfl, by decide⟩

namespace Spelled

theorem find?_isSolid_nil {text : Text} (h : Spelled text []) : text.find? isSolid = none := by
  rw [List.find?_eq_none]
  intro c hc
  simp [isSolid_of_isBlank (nil_iff.mp h c hc)]

theorem find?_isSolid_reverse_nil {text : Text} (h : Spelled text []) :
    text.reverse.find? isSolid = none :=
  find?_isSolid_nil (nil_iff.mpr fun c hc => nil_iff.mp h c (List.mem_reverse.mp hc))

theorem find?_isSolid {text : Text} {content : Content} {contents : List Content}
    (h : Spelled text (content :: contents)) {c : Char} (sign : content.sign? = some c) :
    text.find? isSolid = some c := by
  obtain ⟨blank, spelling, rest, stops, rfl, all, spells, -, -⟩ := exists_of_cons h
  obtain ⟨rfl, solid⟩ := spells.eq_sign sign
  rw [List.find?_append, find?_isSolid_nil (nil_iff.mpr all), List.singleton_append,
    List.find?_cons_of_pos solid]
  rfl

theorem find?_isSolid_reverse {text : Text} {content : Content} {contents : List Content}
    (h : Spelled text (contents ++ [content])) {c : Char} (sign : content.sign? = some c) :
    text.reverse.find? isSolid = some c := by
  obtain ⟨front, back, rfl, -, last⟩ := h.split
  obtain ⟨blank, spelling, rest, stops, rfl, -, spells, -, after⟩ := exists_of_cons last
  obtain ⟨rfl, solid⟩ := spells.eq_sign sign
  simp [List.find?_append, find?_isSolid_reverse_nil after, solid]

end Spelled

theorem listed_eq_cons {items : List Json} (filled : items ≠ [])
    (objects : ∀ item ∈ items, item.isObject) :
    ∃ contents, listed items = .opening .brace :: contents := by
  obtain ⟨item, items, rfl⟩ := List.exists_cons_of_ne_nil filled
  obtain ⟨members, rfl⟩ := Json.isObject_iff.mp (objects _ List.mem_cons_self)
  exact ⟨_, listed_cons _ _⟩

theorem listed_eq_concat {items : List Json} (filled : items ≠ [])
    (objects : ∀ item ∈ items, item.isObject) :
    ∃ contents, listed items = contents ++ [.closing .brace] := by
  induction items with
  | nil => exact absurd rfl filled
  | cons item items ih =>
    rw [List.forall_mem_cons] at objects
    rw [listed_cons]
    cases items with
    | nil =>
      obtain ⟨members, rfl⟩ := Json.isObject_iff.mp objects.1
      exact ⟨.opening .brace :: [.comma].intercalate (Json.contentsOfMembers members), by
        simp [Json.contents, trailed]⟩
    | cons next items =>
      obtain ⟨contents, same⟩ := ih (by simp) objects.2
      exact ⟨item.contents ++ .comma :: contents, by rw [trailed_cons, same]; simp⟩

/-- The text that goes in behind a place, so that items can follow. -/
def opener (front : Text) : Text :=
  if front.reverse.find? isSolid = some '}' then [',', '\n'] else []

def closer (back : Text) : Text := if back.find? isSolid = some '{' then [','] else []

namespace Gap

variable {front back : Text} {items others : List Json}

theorem spelled_opener (gap : Gap front back items others)
    (objects : ∀ item ∈ items, item.isObject) :
    Spelled (front ++ opener front) (leading items) := by
  cases gap with
  | start hf =>
    rw [opener, hf.find?_isSolid_reverse_nil, if_neg (by simp), List.append_nil]
    exact hf
  | comma filled hf =>
    obtain ⟨contents, last⟩ := listed_eq_concat filled objects
    have sign : front.reverse.find? isSolid = some '}' :=
      Spelled.find?_isSolid_reverse (last ▸ hf) rfl
    rw [opener, sign, if_pos rfl, leading_of_ne_nil filled]
    exact hf.append (.comma (.blank rfl .nil)) rfl
  | behind filled _ hf =>
    rw [opener, hf.find?_isSolid_reverse rfl, if_neg (by decide), leading_of_ne_nil filled,
      List.append_nil]
    exact hf

theorem spelled_closer (gap : Gap front back items others)
    (objects : ∀ item ∈ others, item.isObject) :
    Spelled (closer back ++ back) (trailed others) := by
  have listed (filled : others ≠ []) (hb : Spelled back (listed others)) :
      Spelled (closer back ++ back) (trailed others) := by
    obtain ⟨contents, first⟩ := listed_eq_cons filled objects
    have sign : back.find? isSolid = some '{' := Spelled.find?_isSolid (first ▸ hb) rfl
    rw [closer, sign, if_pos rfl, trailed_of_ne_nil filled]
    exact .comma hb
  cases gap with
  | start _ hb =>
    by_cases none : others = []
    · subst none
      rw [closer, Spelled.find?_isSolid_nil hb, if_neg (by simp)]
      exact hb
    · exact listed none hb
  | comma _ _ hb =>
    by_cases none : others = []
    · subst none
      rw [closer, Spelled.find?_isSolid_nil hb, if_neg (by simp)]
      exact hb
    · have sign := Spelled.find?_isSolid (trailed_of_ne_nil none ▸ hb) rfl
      rw [closer, sign, if_neg (by decide)]
      exact hb
  | behind _ more _ hb => exact listed more hb

/-- Items that are put into a gap, with commas towards the objects on both sides, are in the list
between those in front of the gap and those behind it. -/
theorem spelled_insert (gap : Gap front back items others)
    (objects : ∀ item ∈ items ++ others, item.isObject) {payload : Text} {new : List Json}
    (hp : Spelled payload (listed new)) (filled : new ≠ [])
    (newObjects : ∀ item ∈ new, item.isObject) :
    Spelled (front ++ (opener front ++ payload ++ closer back) ++ back)
      (listed (items ++ new ++ others)) := by
  rw [List.forall_mem_append] at objects
  have lead := gap.spelled_opener objects.1
  have rest := gap.spelled_closer objects.2
  obtain ⟨contents, first⟩ := listed_eq_cons filled newObjects
  have starts : payload.Avoids Numeral.isPart := Spelled.avoids (first ▸ hp) (by simp)
  have ends : (closer back ++ back).Avoids Numeral.isPart := by
    by_cases none : others = []
    · subst none
      simpa using Spelled.avoids_of_blank (Spelled.nil_iff.mp rest) (Text.avoids_nil _)
    · exact Spelled.avoids (trailed_of_ne_nil none ▸ rest) (by simp)
  have whole := (lead.append hp starts).append rest ends
  rw [leading_append_listed items filled, ← listed_append (by simp [filled])] at whole
  simpa using whole

end Gap

end FeatureText
