import FeatureText.Proofs.Editor.Repeat
import FeatureText.Proofs.Editor.Steady
import FeatureText.Proofs.Json.Condensed

/-! Formatting what was typed. If literals are spelled as they would be printed and no name is
repeated, only blanks are moved, and the cursor keeps what stands in front of it. -/
namespace FeatureText

open Significant Lexeme

variable {text : Text} {features raws : List Json}

theorem condenses_formatFeatures (step : Nat) (features : List Json) :
    Condenses (formatFeatures step features) ([','].intercalate (features.map Json.compact)) :=
  .intercalate (List.forall_mem_singleton.mpr rfl) fun feature _ =>
    Json.condenses_format step 0 feature

theorem printed_listed (features : List Json) :
    (listed features).flatMap Content.printed = [','].intercalate (features.map Json.compact) := by
  rw [listed, flatMap_intercalate, List.map_map]
  exact congrArg _ (List.map_congr_left fun feature _ => feature.printed_contents)

/-- What is read is what the text spells out, with repeated names merged. -/
theorem eq_map_merged_of_parseFeatures (parsed : parseFeatures text = .ok features)
    (spelled : Spelled text (listed raws)) : features = raws.map Json.merged := by
  by_cases room : ∀ raw ∈ raws, raw.depth < Stage.depthLimit
  · have read := parseFeatures_eq_ok_iff.mpr ⟨raws, spelled, room, rfl⟩
    exact Except.ok.inj (parsed.symm.trans read)
  · push Not at room
    obtain ⟨place, refused⟩ := exists_parseFeatures_eq_error spelled room
    rw [refused] at parsed
    cases parsed

/-- No object of a list that a text spells out has a name twice. -/
def NamesOnce (text : Text) : Prop :=
  ∃ raws, Spelled text (listed raws) ∧ ∀ raw ∈ raws, raw.HasDistinctNames

theorem condenses_of_parseFeatures (parsed : parseFeatures text = .ok features)
    (printed : ∀ l ∈ lex text, l.isPrinted) (once : NamesOnce text) :
    Condenses text ([','].intercalate (features.map Json.compact)) ∧
      '\n' ∉ [','].intercalate (features.map Json.compact) := by
  obtain ⟨raws, spelled, distinct⟩ := once
  have same : raws.map Json.merged = raws :=
    (List.map_congr_left fun raw hr => Json.merged_eq_self (distinct raw hr)).trans (List.map_id _)
  rw [eq_map_merged_of_parseFeatures parsed spelled, same, ← printed_listed]
  exact spelled.condenses printed

namespace Editor

variable {e : Editor}

theorem cursor_reformat (e : Editor) (text : Text) :
    (e.reformat text).cursor = (e.reformat text).snapped (e.refilled text).cursor := by
  let draft : Editor := { e.refilled text with version := e.version + 1 }
  have same : draft.recompute.cursor = (e.refilled text).cursor := cursor_recompute draft
  exact congrArg draft.recompute.snapped same

/-- A carried cursor keeps the significant characters in front of it. -/
theorem significant_before_refilled (synced : e.Synced) {text : Text} (feed : '\r' ∉ text)
    (old : Closes e.buffer.text) (new : Closes text)
    (same : significant e.buffer.text = significant text) :
    significant (joinLines (Fragment.before (e.refilled text).cursor
        (e.refilled text).buffer.lines)) =
      significant (joinLines (Fragment.before e.cursor e.buffer.lines)) := by
  have carried := significant_before_place old new same e.cursor
  have lines : (e.refilled text).buffer.lines = pieces text := splitLines_eq_pieces feed
  have cursor : (e.refilled text).cursor =
      Significant.place (pieces text) (anchor (pieces e.buffer.text) e.cursor) := by
    rw [synced.pieces_text, ← lines]
    rfl
  rw [lines, cursor, carried, synced.pieces_text]

/-- Formatting moves nothing but blanks, and a review puts the cursor behind the same significant
characters, and from there to the nearest place that is shown. -/
theorem formatting_moves_blanks (parsed : parseFeatures text = .ok features)
    (printed : ∀ l ∈ lex text, l.isPrinted) (once : NamesOnce text) :
    (∀ step, significant (formatFeatures step features) = significant text) ∧
    ∀ e : Editor, e.Reachable → e.buffer.text = text →
      let text' := formatFeatures e.options.indentWidth features
      let moved := e.refilled text'
      (text' = text → e.review.1 = e) ∧
      (text' ≠ text → e.review.1.buffer = moved.buffer ∧ moved.buffer.text = text' ∧
        e.review.1.cursor = e.review.1.snapped moved.cursor) ∧
      significant (joinLines (Fragment.before moved.cursor moved.buffer.lines)) =
        significant (joinLines (Fragment.before e.cursor e.buffer.lines)) := by
  obtain ⟨condenses, absent⟩ := condenses_of_parseFeatures parsed printed once
  have formatted (step : Nat) := condenses_formatFeatures step features
  have same (step : Nat) : significant (formatFeatures step features) = significant text :=
    (formatted step).significant_eq.trans condenses.significant_eq.symm
  refine ⟨same, ?_⟩
  rintro e reachable rfl text' moved
  have read : e.features = .ok features := features_eq_ok_iff.mpr parsed
  rw [review_of_features read]
  refine ⟨fun unchanged => if_pos unchanged, fun changed => ?_, ?_⟩
  · have reformatted : e.formatted features = e.reformat text' := if_neg changed
    rw [reformatted]
    exact ⟨buffer_reformat e text', joinLines_splitLines_formatFeatures _ features,
      cursor_reformat e text'⟩
  · exact significant_before_refilled reachable.synced (return_not_mem_formatFeatures _ features)
      (condenses.closes absent) ((formatted _).closes absent) (same _).symm

def looseList : Text := "[ \"a b\" ,7]".toList

def tightList : List Json := [.array [.text ['a', ' ', 'b'], .number (.integer 7)]]

theorem spelled_looseList : Spelled looseList (listed tightList) := by
  have seven : Spelled ['7'] [.scalar (.number (.integer 7))] := by
    have reads : (Number.integer 7).ReadsBack :=
      Number.readsBack_integer (by decide) (by decide)
    have spelled := reads.isReadable.spelled
    rw [reads.reread_eq] at spelled
    exact spelled
  have last := seven.append (.closing .square .nil) rfl
  have string := (Spelled.quote ['a', ' ', 'b']).append (.blank (c := ' ') rfl (.comma last)) rfl
  exact .opening .square (.blank rfl string)

def behindString : Editor :=
  ((ofText .default .still looseList).execute (.setCursor ⟨0, 7⟩)).1

theorem formatting_moves_blanks_looseList :
    parseFeatures looseList = .ok tightList ∧ (∀ l ∈ lex looseList, l.isPrinted) ∧
      NamesOnce looseList ∧ behindString.Reachable ∧ behindString.buffer.text = looseList ∧
      significant (formatFeatures 2 tightList) = significant looseList ∧
      behindString.review.1.cursor = behindString.review.1.snapped ⟨0, 6⟩ ∧
      significant (joinLines (Fragment.before ⟨0, 6⟩ ["[\"a b\", 7]".toList])) =
        significant (joinLines (Fragment.before ⟨0, 7⟩ [looseList])) := by
  have room : ∀ raw ∈ tightList, raw.depth < Stage.depthLimit := by decide
  have parsed : parseFeatures looseList = .ok tightList :=
    parseFeatures_eq_ok_iff.mpr ⟨tightList, spelled_looseList, room, rfl⟩
  have printed : ∀ l ∈ lex looseList, l.isPrinted := by decide +kernel
  have once : NamesOnce looseList := ⟨tightList, spelled_looseList, by decide⟩
  have reachable : behindString.Reachable := (Reachable.ofText _ _ _).step _
  have text : behindString.buffer.text = looseList := by decide +kernel
  obtain ⟨same, reviewed⟩ := formatting_moves_blanks parsed printed once
  obtain ⟨-, moved, kept⟩ := reviewed behindString reachable text
  have changed : formatFeatures behindString.options.indentWidth tightList ≠ looseList := by
    decide +kernel
  have cursor : (behindString.refilled (formatFeatures behindString.options.indentWidth
      tightList)).cursor = ⟨0, 6⟩ := by decide +kernel
  obtain ⟨-, -, snapped⟩ := moved changed
  rw [cursor] at snapped kept
  exact ⟨parsed, printed, once, reachable, text, same 2, snapped, kept⟩

end Editor

end FeatureText
