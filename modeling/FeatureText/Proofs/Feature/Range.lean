import FeatureText.Feature.Range
import FeatureText.Proofs.Bracket.Placed
import FeatureText.Proofs.Feature.Formatted
import FeatureText.Proofs.Feature.Key
import Mathlib.Data.List.Forall2

/-! Where the features stand. The objects that are found by their brackets are the values that are
read, in the same order, and each is known by the key of the value. -/
namespace FeatureText

open FeatureText.Bracket Lexeme

namespace FeatureRange

/-- Inside an object nothing that is nested counts. -/
theorem outerObjects_append {word : List (Nat × Token)} (h : Nested Token.placedSide? word)
    (depth : Nat) (start : Option Position) (rest : List (Nat × Token)) :
    outerObjects (depth + 1) start (word ++ rest) = outerObjects (depth + 1) start rest := by
  induction h generalizing depth rest with
  | nil => rfl
  | @other a word h _ ih =>
    obtain ⟨line, token⟩ := a
    rw [List.cons_append, ← ih depth rest]
    cases token with
    | opening | closing => cases h
    | _ => cases depth <;> rfl
  | @nest a z inner word bracket ha hz _ _ ihInner ihRest =>
    obtain ⟨line, token⟩ := a
    obtain ⟨stop, last⟩ := z
    cases token <;> cases ha
    cases last <;> cases hz
    rw [List.cons_append, List.append_assoc, List.cons_append, outerObjects,
      if_neg (by simp), ihInner, outerObjects, ihRest]

theorem outerObjects_append_plain {word : List (Nat × Token)}
    (h : ∀ token ∈ word, Token.placedSide? token = none) (rest : List (Nat × Token)) :
    outerObjects 0 none (word ++ rest) = outerObjects 0 none rest := by
  induction word with
  | nil => rfl
  | cons first word ih =>
    obtain ⟨line, token⟩ := first
    rw [List.forall_mem_cons] at h
    rw [List.cons_append, ← ih h.2]
    cases token with
    | opening | closing => cases h.1
    | _ => rfl

/-- The scanner finds nothing in texts of the contents, when they stand between objects. -/
def IsPassedOver (contents : List Content) : Prop :=
  ∀ ⦃text⦄, Spelled text contents → ∀ p rest,
    outerObjects 0 none (Token.placedAt p (text ++ rest)) =
      outerObjects 0 none (Token.placedAt (p.advance text) rest)

theorem isPassedOver_of_plain {contents : List Content}
    (plain : ∀ content ∈ contents, content.side? = none) : IsPassedOver contents := by
  intro text h p rest
  rw [Token.placedAt_append h]
  refine outerObjects_append_plain (List.filterMap_eq_nil_iff.mp ?_) _
  rw [Token.filterMap_placedAt h, List.filterMap_eq_nil_iff]
  exact plain

theorem isPassedOver_nil : IsPassedOver [] := isPassedOver_of_plain (by simp)

theorem isPassedOver_comma : IsPassedOver [.comma] :=
  isPassedOver_of_plain (by simp [Content.side?])

theorem IsPassedOver.append {contents others : List Content} (h : IsPassedOver contents)
    (ho : IsPassedOver others) : IsPassedOver (contents ++ others) := by
  intro text spelled p rest
  obtain ⟨front, back, rfl, hf, hb⟩ := spelled.split
  rw [List.append_assoc, h hf, ho hb, Position.advance_append]

theorem exists_bracketed {text : Text} {before contents more : List Content} {bracket : Bracket}
    (h : Spelled text
      (before ++ (.opening bracket :: (contents ++ [.closing bracket]) ++ more))) :
    ∃ lead inner rest, text = lead ++ (bracket.opening :: inner ++ [bracket.closing]) ++ rest ∧
      Spelled lead before ∧ Spelled inner contents ∧ Spelled rest more := by
  obtain ⟨front, back, rfl, hf, hb⟩ := h.split
  rw [List.cons_append, List.append_assoc] at hb
  obtain ⟨blank, behind, rfl, hblank, hb⟩ := Spelled.exists_of_cons_opening hb
  obtain ⟨inside, close, rfl, hi, hc⟩ := hb.split
  obtain ⟨gap, rest, rfl, hgap, hr⟩ := Spelled.exists_of_cons_closing hc
  refine ⟨front ++ blank, inside ++ gap, rest, by simp, hf.append_behind hblank,
    hi.append_behind hgap, hr⟩

/-- Reading over a pair of brackets finds it if it is an object, and goes on behind it. -/
theorem outerObjects_bracketed (bracket : Bracket) {lead inner : Text}
    {before contents : List Content} (hl : Spelled lead before) (passed : IsPassedOver before)
    (hi : Spelled inner contents) (nested : Nested Content.side? contents) (p : Position)
    (rest : Text) :
    outerObjects 0 none
        (Token.placedAt p (lead ++ (bracket.opening :: inner ++ [bracket.closing]) ++ rest)) =
      (outerObjects 0 none (Token.placedAt
        (p.advance (lead ++ (bracket.opening :: inner ++ [bracket.closing]))) rest)).map
        fun objects => if bracket = .brace then
          (p.advance lead, p.advance (lead ++ bracket.opening :: inner)) :: objects
        else objects := by
  have nested (q : Position) := Token.nested_placedAt hi nested q
  have opening := Token.placedAt_spelling (.opening bracket) (p.advance lead)
    (inner ++ (bracket.closing :: rest))
  have closing := Token.placedAt_spelling (.closing bracket)
    (p.advance (lead ++ bracket.opening :: inner)) rest
  have place : (p.advance lead).advance [bracket.opening] =
      p.advance (lead ++ [bracket.opening]) := (Position.advance_append ..).symm
  have whole : lead ++ (bracket.opening :: inner ++ [bracket.closing]) ++ rest =
      lead ++ (bracket.opening :: (inner ++ bracket.closing :: rest)) := by simp
  simp only [Content.tokens, List.map_cons, List.map_nil, List.singleton_append, place]
    at opening closing
  rw [whole, passed hl, opening, outerObjects, Token.placedAt_append hi,
    outerObjects_append (nested _), ← Position.advance_append]
  rw [List.append_assoc, List.singleton_append, closing, outerObjects, ← Position.advance_append]
  cases bracket <;> simp [Bracket.opening, Bracket.closing]

theorem isPassedOver_array (items : List Json) : IsPassedOver (Json.array items).contents := by
  intro text h p rest
  have listed : Nested Content.side? ([.comma].intercalate (Json.contentsOfItems items)) := by
    rw [Json.contentsOfItems_eq_map]
    exact .intercalate (.other rfl .nil) (List.forall_mem_map.mpr fun item _ =>
      item.nested_contents)
  rw [Json.contents, ← List.append_nil (_ :: _), ← List.nil_append (_ ++ [])] at h
  obtain ⟨lead, inner, behind, rfl, hl, hi, hb⟩ := exists_bracketed h
  rw [List.append_assoc, outerObjects_bracketed .square hl isPassedOver_nil hi listed]
  simp [isPassedOver_nil hb, ← Position.advance_append]

theorem isPassedOver_contents {value : Json} (other : value.isObject = false) :
    IsPassedOver value.contents := by
  cases value with
  | array items => exact isPassedOver_array items
  | object members => cases other
  | _ => exact isPassedOver_of_plain (by simp [Json.contents, Content.side?])

/-- Values with the places of their brackets in a text that begins at a place. -/
inductive Laid : Position → Text → List Json → List (Position × Position) → Prop where
  | nil (p : Position) (text : Text) : Laid p text [] []
  | cons {p : Position} {lead inner rest : Text} {raw : Json} {raws : List Json}
      {places : List (Position × Position)} (h : Spelled ('{' :: inner ++ ['}']) raw.contents) :
      Laid (p.advance (lead ++ ('{' :: inner ++ ['}']))) rest raws places →
      Laid p (lead ++ ('{' :: inner ++ ['}']) ++ rest) (raw :: raws)
        ((p.advance lead, p.advance (lead ++ '{' :: inner)) :: places)

theorem exists_laid_cons {text : Text} {raw : Json} {raws : List Json}
    {before more : List Content} (p : Position) (object : raw.isObject)
    (passed : IsPassedOver before) (h : Spelled text (before ++ (raw.contents ++ more)))
    (others : ∀ q rest, Spelled rest more → ∃ places,
      outerObjects 0 none (Token.placedAt q rest) = some places ∧ Laid q rest raws places) :
    ∃ places, outerObjects 0 none (Token.placedAt p text) = some places ∧
      Laid p text (raw :: raws) places := by
  obtain ⟨members, rfl⟩ := Json.isObject_iff.mp object
  obtain ⟨lead, inner, rest, rfl, hl, hi, hr⟩ := exists_bracketed h
  obtain ⟨places, found, laid⟩ := others _ rest hr
  have spelled : Spelled ('{' :: inner ++ ['}']) (Json.object members).contents :=
    .opening .brace (hi.append (.closing .brace .nil) rfl)
  refine ⟨_, ?_, .cons spelled laid⟩
  have whole := outerObjects_bracketed .brace hl passed hi (Json.nested_members members) p rest
  exact whole.trans (congrArg (Option.map _) found)

theorem exists_laid_trailed {text : Text} {raws : List Json} {before : List Content}
    (p : Position) (passed : IsPassedOver before)
    (h : Spelled text (before ++ trailed raws)) :
    ∃ places, outerObjects 0 none (Token.placedAt p text) = some places ∧
      Laid p text (raws.filter Json.isObject) places := by
  induction raws generalizing p text before with
  | nil =>
    rw [trailed, List.flatMap_nil, List.append_nil] at h
    have nothing := passed h p []
    rw [List.append_nil] at nothing
    exact ⟨[], nothing, .nil p text⟩
  | cons raw raws ih =>
    rw [trailed_cons, listed_cons, ← List.singleton_append, ← List.append_assoc] at h
    cases object : raw.isObject with
    | true =>
      rw [List.filter_cons_of_pos object]
      exact exists_laid_cons p object (passed.append isPassedOver_comma) h fun q rest hr =>
        ih q isPassedOver_nil hr
    | false =>
      rw [List.filter_cons_of_neg (by simp [object])]
      rw [← List.append_assoc] at h
      exact ih p ((passed.append isPassedOver_comma).append (isPassedOver_contents object)) h

/-- The scanner finds the objects of a list, and passes over everything else. -/
theorem exists_laid {text : Text} {raws : List Json} (p : Position)
    (h : Spelled text (listed raws)) :
    ∃ places, outerObjects 0 none (Token.placedAt p text) = some places ∧
      Laid p text (raws.filter Json.isObject) places := by
  cases raws with
  | nil => exact exists_laid_trailed p isPassedOver_nil h
  | cons raw raws =>
    rw [listed_cons] at h
    cases object : raw.isObject with
    | true =>
      rw [List.filter_cons_of_pos object]
      exact exists_laid_cons p object isPassedOver_nil h fun q rest hr =>
        exists_laid_trailed q isPassedOver_nil hr
    | false =>
      rw [List.filter_cons_of_neg (by simp [object])]
      exact exists_laid_trailed p (isPassedOver_contents object) h

theorem Laid.line_le {p : Position} {text : Text} {raws : List Json}
    {places : List (Position × Position)} (h : Laid p text raws places) :
    ∀ o ∈ places, p.line ≤ o.1.line := by
  induction h with
  | nil => simp
  | @cons p lead inner rest raw raws places spelled _ ih =>
    refine List.forall_mem_cons.mpr ⟨p.line_le_advance lead, fun o ho => ?_⟩
    exact Nat.le_trans (p.line_le_advance _) (ih o ho)

theorem Laid.start_le_stop {p : Position} {text : Text} {raws : List Json}
    {places : List (Position × Position)} (h : Laid p text raws places) :
    ∀ o ∈ places, o.1.line ≤ o.2.line := by
  induction h with
  | nil => simp
  | @cons p lead inner rest raw raws places spelled _ ih =>
    refine List.forall_mem_cons.mpr ⟨?_, ih⟩
    rw [Position.advance_append]
    exact Position.line_le_advance _ _

theorem Laid.ordered {p : Position} {text : Text} {raws : List Json}
    {places : List (Position × Position)} (h : Laid p text raws places) :
    places.Pairwise fun a b => a.2.line ≤ b.1.line := by
  induction h with
  | nil => exact .nil
  | @cons p lead inner rest raw raws places spelled laid ih =>
    refine List.pairwise_cons.mpr ⟨fun o ho => ?_, ih⟩
    have behind := laid.line_le o ho
    rw [← List.append_assoc, Position.advance_append] at behind
    exact Nat.le_trans (Position.line_le_advance _ _) behind

theorem textOf_object (front inner back : Text) :
    textOf (pieces (front ++ ('{' :: inner ++ ['}']) ++ back)) (Position.origin.advance front)
      (Position.origin.advance (front ++ '{' :: inner)) = '{' :: inner ++ ['}'] := by
  have stop : Position.origin.advance (front ++ ('{' :: inner ++ ['}'])) =
      ⟨(Position.origin.advance (front ++ '{' :: inner)).line,
        (Position.origin.advance (front ++ '{' :: inner)).column + 1⟩ := by
    rw [← List.append_assoc, Position.advance_append]
    rfl
  rw [textOf, ← stop]
  exact Fragment.joinLines_after_before front _ back

theorem Laid.parse_textOf {p : Position} {rest : Text} {raws : List Json}
    {places : List (Position × Position)} (h : Laid p rest raws places) (done : Text)
    (hp : p = Position.origin.advance done)
    (room : ∀ raw ∈ raws, raw.depth < Stage.depthLimit) :
    List.Forall₂ (fun o raw =>
      Json.parse (textOf (pieces (done ++ rest)) o.1 o.2) = .ok raw.merged) places raws := by
  -- Places count from the start of the whole text, so what is done grows while the rest shrinks.
  induction h generalizing done with
  | nil => exact .nil
  | @cons p lead inner rest raw raws places spelled laid ih =>
    subst hp
    rw [List.forall_mem_cons] at room
    have parsed : Json.parse ('{' :: inner ++ ['}']) = .ok raw.merged :=
      Json.parse_eq_ok_iff.mpr ⟨raw, spelled, Nat.le_of_lt room.1, rfl⟩
    have found := textOf_object (done ++ lead) inner rest
    have others := ih _ (Position.advance_append ..).symm room.2
    simp only [List.append_assoc, ← Position.advance_append] at found others ⊢
    exact .cons (by rw [found, parsed]) others

theorem Laid.column_lt {p : Position} {rest : Text} {raws : List Json}
    {places : List (Position × Position)} (h : Laid p rest raws places) (done : Text)
    (hp : p = Position.origin.advance done) :
    ∀ o ∈ places, o.1.column < ((pieces (done ++ rest)).getD o.1.line []).length ∧
      o.2.column < ((pieces (done ++ rest)).getD o.2.line []).length := by
  induction h generalizing done with
  | nil => simp
  | @cons p lead inner rest raw raws places spelled laid ih =>
    subst hp
    have start := Fragment.column_advance_lt (done ++ lead) (c := '{') (by decide)
      (inner ++ '}' :: rest)
    have stop := Fragment.column_advance_lt (done ++ lead ++ '{' :: inner) (c := '}') (by decide)
      rest
    have others := ih _ (Position.advance_append ..).symm
    simp only [List.append_assoc, List.cons_append, ← Position.advance_append]
      at start stop others ⊢
    exact List.forall_mem_cons.mpr ⟨⟨start, stop⟩, others⟩

/-- Where the objects stand in a text: their places in order, each with the text of the object. -/
theorem exists_objects {text : Text} {items : List Json} (parsed : parseFeatures text = .ok items) :
    ∃ places, outerObjects 0 none (Token.placed (pieces text)) = some places ∧
      List.Forall₂ (fun o object => Json.parse (textOf (pieces text) o.1 o.2) = .ok object) places
        (items.filter Json.isObject) ∧
      (∀ o ∈ places, o.1.line ≤ o.2.line) ∧ places.Pairwise fun a b => a.2.line ≤ b.1.line := by
  obtain ⟨raws, spelled, room, rfl⟩ := parseFeatures_eq_ok_iff.mp parsed
  obtain ⟨places, found, laid⟩ := exists_laid .origin spelled
  have texts := laid.parse_textOf [] rfl fun raw hr => room raw (List.mem_of_mem_filter hr)
  refine ⟨places, by rw [Token.placed_pieces, found], ?_, laid.start_le_stop, laid.ordered⟩
  have same : Json.isObject ∘ Json.merged = Json.isObject := funext Json.isObject_merged
  rw [List.filter_map, same, List.forall₂_map_right_iff]
  exact texts

theorem hashOfText_of_parse {text : Text} {value : Json} (parsed : Json.parse text = .ok value) :
    hashOfText text = Feature.hash value := by
  rw [hashOfText, parsed]

theorem map_key_ofObjects (lines : List Line) (places : List (Position × Position)) :
    (ofObjects lines places).map key =
      Feature.keysAfter [] (places.map fun o => hashOfText (textOf lines o.1 o.2)) := by
  rw [ofObjects, List.map_map]
  change List.map (Prod.fst ∘ Prod.fst) _ = _
  rw [← List.map_map, List.zipIdx_map_fst, List.map_fst_zip (by simp)]

theorem map_index_ofObjects (lines : List Line) (places : List (Position × Position)) :
    (ofObjects lines places).map index = List.range places.length := by
  rw [ofObjects, List.map_map]
  change List.map Prod.snd _ = _
  rw [List.zipIdx_map_snd, List.length_zip]
  simp [List.range_eq_range']

theorem map_lines_ofObjects (lines : List Line) (places : List (Position × Position)) :
    ((ofObjects lines places).map fun r => (r.startLine, r.stopLine)) =
      places.map fun o => (o.1.line, o.2.line) := by
  rw [ofObjects, List.map_map]
  let linesOf (o : Position × Position) := (o.1.line, o.2.line)
  change List.map (linesOf ∘ Prod.snd ∘ Prod.fst) _ = _
  rw [← List.map_map, ← List.map_map, List.zipIdx_map_fst, List.map_snd_zip (by simp)]

theorem ofLines_eq_ofObjects {lines : List Line} {places : List (Position × Position)}
    (found : outerObjects 0 none (Token.placed lines) = some places) :
    ofLines lines = ofObjects lines places := by
  rw [ofLines, found]
  rfl

theorem map_key_ofLines {text : Text} {items : List Json}
    (parsed : parseFeatures text = .ok items) :
    (ofLines (pieces text)).map key = Feature.keys (items.filter Json.isObject) := by
  obtain ⟨places, found, texts, -, -⟩ := exists_objects parsed
  have hashes : List.Forall₂ (fun o object =>
      hashOfText (textOf (pieces text) o.1 o.2) = Feature.hash object) places
      (items.filter Json.isObject) := texts.imp fun _ _ => hashOfText_of_parse
  rw [← List.forall₂_map_right_iff, ← List.forall₂_map_left_iff, List.forall₂_eq_eq_eq] at hashes
  rw [ofLines_eq_ofObjects found, map_key_ofObjects, hashes, Feature.keys]

end FeatureRange

theorem isBalanced_of_parseFeatures {text : Text} {items : List Json}
    (parsed : parseFeatures text = .ok items) : isBalanced (pieces text) := by
  obtain ⟨raws, spelled, -, -⟩ := parseFeatures_eq_ok_iff.mp parsed
  refine isBalanced_pieces spelled ?_
  exact .intercalate (.other rfl .nil) (List.forall_mem_map.mpr fun raw _ => raw.nested_contents)

/-- On every readable list of objects the bracket scanner finds one range for each item, in the
order of the items, with the item's index and key. -/
theorem ranges_agree_with_items {text : Text} {items : List Json}
    (parsed : parseFeatures text = .ok items)
    (objects : ∀ item ∈ items, ∃ members, item = .object members) :
    isBalanced (pieces text) ∧
    (FeatureRange.ofLines (pieces text)).length = items.length ∧
    (FeatureRange.ofLines (pieces text)).map FeatureRange.index = List.range items.length ∧
    (FeatureRange.ofLines (pieces text)).map FeatureRange.key = Feature.keys items ∧
    (Feature.keys items).Nodup ∧
    (∀ r ∈ FeatureRange.ofLines (pieces text), r.startLine ≤ r.stopLine) ∧
    (FeatureRange.ofLines (pieces text)).Pairwise fun r s => r.stopLine ≤ s.startLine := by
  obtain ⟨places, found, texts, within, ordered⟩ := FeatureRange.exists_objects parsed
  have ranges := FeatureRange.ofLines_eq_ofObjects found
  have keys := FeatureRange.map_key_ofLines parsed
  have all : items.filter Json.isObject = items := Json.filter_isObject_eq_self objects
  rw [all] at keys texts
  have count : places.length = items.length := texts.length_eq
  have length : (FeatureRange.ofLines (pieces text)).length = items.length := by
    simpa using congrArg List.length keys
  have lines := FeatureRange.map_lines_ofObjects (pieces text) places
  rw [← ranges] at lines
  refine ⟨isBalanced_of_parseFeatures parsed, length, ?_, keys, Feature.nodup_keys items, ?_, ?_⟩
  · rw [ranges, FeatureRange.map_index_ofObjects, count]
  · have all : ∀ span ∈ places.map fun o => (o.1.line, o.2.line), span.1 ≤ span.2 :=
      List.forall_mem_map.mpr within
    rw [← lines] at all
    exact List.forall_mem_map.mp all
  · have spans : (places.map fun o => (o.1.line, o.2.line)).Pairwise fun a b => a.2 ≤ b.1 :=
      List.pairwise_map.mpr ordered
    rw [← lines] at spans
    exact List.pairwise_map.mp spans

theorem ranges_agree_with_items_mixedValue :
    parseFeatures (formatFeatures 1 [mixedValue, mixedValue]) = .ok [mixedValue, mixedValue] ∧
      (FeatureRange.ofLines (pieces (formatFeatures 1 [mixedValue, mixedValue]))).length = 2 := by
  have each {p : Json → Prop} (h : p mixedValue) : ∀ item ∈ [mixedValue, mixedValue], p item := by
    simp [h]
  have parsed : parseFeatures (formatFeatures 1 [mixedValue, mixedValue]) = .ok _ :=
    parseFeatures_formatFeatures 1 (each (by decide)) (each hasExactNumbers_mixedValue)
      (each (by decide))
  exact ⟨parsed, (ranges_agree_with_items parsed (each ⟨_, rfl⟩)).2.1⟩

end FeatureText
