import FeatureText.Proofs.Json.Machine

/-! Values that are too deep. The machine goes through what fits, and stops at the first bracket for
which there is no room, so a text that spells out such a value is refused for its depth and for
nothing else. -/
namespace FeatureText

namespace Stage

open Content

/-- The machine stops inside the value wherever there is no room for its depth. -/
def Refuses (value : Json) : Prop :=
  ∀ (stack : List Suspended) (rest : List Content), stack.length ≤ depthLimit →
    depthLimit < stack.length + value.depth →
    (atValue stack).steps (value.contents ++ rest) = .error ⟨.tooDeep, 1⟩

theorem step_opening_of_full (bracket : Bracket) {stack : List Suspended}
    (full : ¬stack.length < depthLimit) :
    (atValue stack).step (.opening bracket) = .error ⟨.tooDeep, 1⟩ := by
  simp [step, begin, full]

theorem steps_cons_of_error {stage : Stage} {content : Content} {fault : Fault}
    (h : stage.step content = .error fault) (contents : List Content) :
    stage.steps (content :: contents) = .error fault := by
  rw [steps_cons, h]
  rfl

theorem steps_items_of_deep {items : List Json} (refuses : ∀ item ∈ items, Refuses item)
    {stack : List Suspended} (room : stack.length + 1 ≤ depthLimit)
    (deep : ∃ item ∈ items, depthLimit < stack.length + 1 + item.depth) (first : Bool)
    (done : List Json) (rest : List Content) :
    (atItem first done stack).steps ([.comma].intercalate (items.map Json.contents) ++ rest) =
      .error ⟨.tooDeep, 1⟩ := by
  induction items generalizing first done with
  | nil => simp at deep
  | cons item items ih =>
    rw [List.forall_mem_cons] at refuses
    rw [List.map_cons, intercalate_cons, List.append_assoc, steps_atItem]
    by_cases fits : stack.length + 1 + item.depth ≤ depthLimit
    · have behind : ∃ item ∈ items, depthLimit < stack.length + 1 + item.depth :=
        ((List.exists_mem_cons_iff ..).mp deep).resolve_left (Nat.not_lt.mpr fits)
      have some : items.map Json.contents ≠ [] := by
        rintro none
        simp [List.map_eq_nil_iff.mp none] at behind
      rw [reads item (.list done :: stack) _ fits, flatMap_separator _ some, List.append_assoc]
      exact (steps_cons_of_step rfl _).trans (ih refuses.2 behind false (item.merged :: done))
    · exact refuses.1 (.list done :: stack) _ room (Nat.lt_of_not_le fits)

theorem steps_members_of_deep {members : List (Text × Json)}
    (refuses : ∀ member ∈ members, Refuses member.2) {stack : List Suspended}
    (room : stack.length + 1 ≤ depthLimit)
    (deep : ∃ member ∈ members, depthLimit < stack.length + 1 + member.2.depth) (first : Bool)
    (done : List (Text × Json)) (rest : List Content) :
    (atName first done stack).steps ([.comma].intercalate (members.map fun member =>
        .string member.1 :: .colon :: member.2.contents) ++ rest) = .error ⟨.tooDeep, 1⟩ := by
  induction members generalizing first done with
  | nil => simp at deep
  | cons member members ih =>
    obtain ⟨name, value⟩ := member
    rw [List.forall_mem_cons] at refuses
    rw [List.map_cons, intercalate_cons, List.append_assoc, List.cons_append, List.cons_append,
      steps_atName]
    by_cases fits : stack.length + 1 + value.depth ≤ depthLimit
    · have behind : ∃ member ∈ members, depthLimit < stack.length + 1 + member.2.depth :=
        ((List.exists_mem_cons_iff ..).mp deep).resolve_left (Nat.not_lt.mpr fits)
      have some : (members.map fun member =>
          .string member.1 :: .colon :: member.2.contents) ≠ [] := by
        rintro none
        simp [List.map_eq_nil_iff.mp none] at behind
      rw [reads value (.record done name :: stack) _ fits, flatMap_separator _ some,
        List.append_assoc]
      exact (steps_cons_of_step rfl _).trans
        (ih refuses.2 behind false (putMember name value.merged done))
    · exact refuses.1 (.record done name :: stack) _ room (Nat.lt_of_not_le fits)

theorem refuses (value : Json) : Refuses value := by
  induction value using Json.induct with
  | null | bool | number | text =>
    intro stack rest room deep
    exact absurd deep (Nat.not_lt.mpr room)
  | array items ih =>
    intro stack rest room deep
    rw [Json.contents, List.cons_append, List.append_assoc, Json.contentsOfItems_eq_map]
    by_cases inside : stack.length < depthLimit
    · have item : ∃ item ∈ items, depthLimit < stack.length + 1 + item.depth := by
        by_contra none
        push Not at none
        exact absurd (Json.add_depth_array_le none inside) (Nat.not_le.mpr deep)
      exact (steps_cons_of_step (step_opening .square stack inside) _).trans
        (steps_items_of_deep ih inside item true [] _)
    · exact steps_cons_of_error (step_opening_of_full .square inside) _
  | object members ih =>
    intro stack rest room deep
    rw [Json.contents, List.cons_append, List.append_assoc, Json.contentsOfMembers_eq_map]
    by_cases inside : stack.length < depthLimit
    · have member : ∃ member ∈ members, depthLimit < stack.length + 1 + member.2.depth := by
        by_contra none
        push Not at none
        exact absurd (Json.add_depth_object_le none inside) (Nat.not_le.mpr deep)
      exact (steps_cons_of_step (step_opening .brace stack inside) _).trans
        (steps_members_of_deep ih inside member true [] _)
    · exact steps_cons_of_error (step_opening_of_full .brace inside) _

end Stage

namespace Json

theorem exists_run_eq_error {stage : Stage} {lexemes : List Lexeme} {fault : Fault}
    (h : stage.steps (lexemes.map Lexeme.content) = .error fault) (size offset : Nat) :
    ∃ place, run size offset stage lexemes = .error ⟨fault.cause, place⟩ := by
  induction lexemes generalizing offset stage with
  | nil => cases h
  | cons lexeme lexemes ih =>
    rw [List.map_cons, Stage.steps_cons] at h
    rw [run]
    cases hs : stage.step lexeme.content with
    | ok next =>
      rw [hs] at h
      exact ih h _
    | error other =>
      rw [hs] at h
      obtain rfl := Except.error.inj h
      exact ⟨_, rfl⟩

/-- A text that spells out a value that is too deep is refused for that. -/
theorem exists_parse_eq_error {text : Text} {raw : Json} (spelled : Spelled text raw.contents)
    (deep : Stage.depthLimit < raw.depth) :
    ∃ offset, parse text = .error ⟨.tooDeep, offset⟩ := by
  have stopped := Stage.refuses raw [] [] (Nat.zero_le _) (by simpa using deep)
  rw [List.append_nil, ← spelled.contentsOf_eq] at stopped
  exact exists_run_eq_error stopped _ 0

end Json

end FeatureText
