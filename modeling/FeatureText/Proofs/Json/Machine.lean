import FeatureText.Proofs.Json.Grammar

/-! The reader accepts exactly the texts that spell out a value that is not too deep, and its answer
is that value with repeated names merged. -/
namespace FeatureText

namespace Stage

open Content

def steps (stage : Stage) (contents : List Content) : Except Fault Stage :=
  contents.foldlM step stage

@[simp] theorem steps_nil (stage : Stage) : stage.steps [] = .ok stage := rfl

theorem steps_cons (stage : Stage) (content : Content) (contents : List Content) :
    stage.steps (content :: contents) = stage.step content >>= (steps · contents) := rfl

theorem steps_cons_of_step {stage next : Stage} {content : Content}
    (h : stage.step content = .ok next) (contents : List Content) :
    stage.steps (content :: contents) = next.steps contents := by
  rw [steps_cons, h]
  rfl

theorem exists_contents_eq_cons (value : Json) :
    ∃ content contents, value.contents = content :: contents ∧
      ∀ bracket, content ≠ .closing bracket := by
  cases value <;> exact ⟨_, _, rfl, by simp⟩

theorem step_atItem {content : Content} (h : content ≠ .closing .square) (first : Bool)
    (items : List Json) (stack : List Suspended) :
    (atItem first items stack).step content = begin (.list items :: stack) content := by
  cases first <;> cases content with
  | closing bracket => cases bracket <;> first | rfl | exact absurd rfl h
  | _ => rfl

theorem steps_atItem (first : Bool) (items : List Json) (stack : List Suspended) (value : Json)
    (contents : List Content) :
    (atItem first items stack).steps (value.contents ++ contents) =
      (atValue (.list items :: stack)).steps (value.contents ++ contents) := by
  obtain ⟨content, tail, h, closing⟩ := exists_contents_eq_cons value
  rw [h, List.cons_append, steps_cons, steps_cons, step_atItem (closing _)]
  rfl

theorem steps_atName (first : Bool) (members : List (Text × Json)) (name : Text)
    (stack : List Suspended) (contents : List Content) :
    (atName first members stack).steps (.string name :: .colon :: contents) =
      (atValue (.record members name :: stack)).steps contents := by
  have named : (atName first members stack).step (.string name) =
      .ok (atColon members name stack) := rfl
  have colon : (atColon members name stack).step .colon =
      .ok (atValue (.record members name :: stack)) := rfl
  rw [steps_cons_of_step named, steps_cons_of_step colon]

def opened (stack : List Suspended) : Bracket → Stage
  | .square => atItem true [] stack
  | .brace => atName true [] stack

theorem step_opening (bracket : Bracket) (stack : List Suspended)
    (room : stack.length < depthLimit) :
    (atValue stack).step (.opening bracket) = .ok (opened stack bracket) := by
  cases bracket <;> simp [step, begin, room, opened]

/-- The machine reads the contents of a value wherever there is room for its depth. -/
def Reads (value : Json) : Prop :=
  ∀ (stack : List Suspended) (rest : List Content), stack.length + value.depth ≤ depthLimit →
    (atValue stack).steps (value.contents ++ rest) = (finish value.merged stack).steps rest

theorem steps_items {items : List Json} (reads : ∀ item ∈ items, Reads item) (done : List Json)
    (stack : List Suspended) (rest : List Content)
    (room : ∀ item ∈ items, stack.length + 1 + item.depth ≤ depthLimit) :
    (afterItem done stack).steps
        (items.flatMap (fun item => .comma :: item.contents) ++ .closing .square :: rest) =
      (finish (.array (done.reverse ++ items.map Json.merged)) stack).steps rest := by
  induction items generalizing done with
  | nil =>
    rw [List.flatMap_nil, List.nil_append, List.map_nil, List.append_nil]
    exact steps_cons_of_step rfl rest
  | cons item items ih =>
    rw [List.forall_mem_cons] at reads room
    have comma : (afterItem done stack).step .comma = .ok (atItem false done stack) := rfl
    rw [List.flatMap_cons, List.append_assoc, List.cons_append, steps_cons_of_step comma,
      steps_atItem, reads.1 (.list done :: stack) _ room.1]
    simpa [finish] using ih reads.2 (item.merged :: done) room.2

theorem steps_members {members : List (Text × Json)} (reads : ∀ member ∈ members, Reads member.2)
    (done : List (Text × Json)) (stack : List Suspended) (rest : List Content)
    (room : ∀ member ∈ members, stack.length + 1 + member.2.depth ≤ depthLimit) :
    (afterMember done stack).steps
        (members.flatMap (fun member =>
          .comma :: .string member.1 :: .colon :: member.2.contents) ++ .closing .brace :: rest) =
      (finish (.object (Json.collect done (Json.mergedMembers members))) stack).steps rest := by
  induction members generalizing done with
  | nil =>
    rw [List.flatMap_nil, List.nil_append]
    exact steps_cons_of_step rfl rest
  | cons member members ih =>
    obtain ⟨name, value⟩ := member
    rw [List.forall_mem_cons] at reads room
    have comma : (afterMember done stack).step .comma = .ok (atName false done stack) := rfl
    rw [List.flatMap_cons, List.append_assoc, List.cons_append, List.cons_append, List.cons_append,
      steps_cons_of_step comma, steps_atName, reads.1 (.record done name :: stack) _ room.1]
    exact ih reads.2 (putMember name value.merged done) room.2

theorem reads (value : Json) : Reads value := by
  induction value using Json.induct with
  | null => exact fun stack rest _ => steps_cons_of_step rfl rest
  | bool value => exact fun stack rest _ => steps_cons_of_step rfl rest
  | number value => exact fun stack rest _ => steps_cons_of_step rfl rest
  | text value => exact fun stack rest _ => steps_cons_of_step rfl rest
  | array items ih =>
    intro stack rest room
    simp only [Json.depth] at room
    have inner : ∀ item ∈ items, stack.length + 1 + item.depth ≤ depthLimit := by
      intro item hi
      have := Json.depthOfItems_le_iff.mp (Nat.le_refl _) item hi
      omega
    rw [Json.contents, List.cons_append, List.append_assoc,
      steps_cons_of_step (step_opening _ _ (by omega)), Json.contentsOfItems_eq_map]
    cases items with
    | nil => exact steps_cons_of_step rfl rest
    | cons item items =>
      rw [List.forall_mem_cons] at ih inner
      rw [List.map_cons, intercalate_cons, List.flatMap_map, List.append_assoc]
      simp only [opened]
      rw [steps_atItem, ih.1 (.list [] :: stack) _ inner.1]
      simpa [finish, Json.merged, Json.mergedItems_eq_map] using
        steps_items ih.2 [item.merged] stack rest inner.2
  | object members ih =>
    intro stack rest room
    simp only [Json.depth] at room
    have inner : ∀ member ∈ members, stack.length + 1 + member.2.depth ≤ depthLimit := by
      intro member hm
      have := Json.depthOfMembers_le_iff.mp (Nat.le_refl _) member hm
      omega
    rw [Json.contents, List.cons_append, List.append_assoc,
      steps_cons_of_step (step_opening _ _ (by omega)), Json.contentsOfMembers_eq_map]
    cases members with
    | nil => exact steps_cons_of_step rfl rest
    | cons member members =>
      obtain ⟨name, value⟩ := member
      rw [List.forall_mem_cons] at ih inner
      rw [List.map_cons, intercalate_cons, List.flatMap_map, List.append_assoc]
      simp only [opened, List.cons_append]
      rw [steps_atName, ih.1 (.record [] name :: stack) _ inner.1]
      exact steps_members ih.2 [(name, value.merged)] stack rest inner.2

/-- The contents begin with those of a value, and the machine goes on behind them. -/
def ValueAhead (stack : List Suspended) (contents : List Content) (result : Json) : Prop :=
  ∃ (value : Json) (rest : List Content), contents = value.contents ++ rest ∧
    stack.length + value.depth ≤ depthLimit ∧
    (finish value.merged stack).steps rest = .ok (.done result)

def ItemsAhead (done : List Json) (stack : List Suspended) (contents : List Content)
    (result : Json) : Prop :=
  ∃ (items : List Json) (rest : List Content),
    contents = items.flatMap (fun item => .comma :: item.contents) ++ .closing .square :: rest ∧
    (∀ item ∈ items, stack.length + 1 + item.depth ≤ depthLimit) ∧
    (finish (.array (done.reverse ++ items.map Json.merged)) stack).steps rest =
      .ok (.done result)

def MembersAhead (done : List (Text × Json)) (stack : List Suspended) (contents : List Content)
    (result : Json) : Prop :=
  ∃ (members : List (Text × Json)) (rest : List Content),
    contents =
      members.flatMap (fun member => .comma :: .string member.1 :: .colon :: member.2.contents) ++
        .closing .brace :: rest ∧
    (∀ member ∈ members, stack.length + 1 + member.2.depth ≤ depthLimit) ∧
    (finish (.object (Json.collect done (Json.mergedMembers members))) stack).steps rest =
      .ok (.done result)

theorem exists_of_steps_cons {stage last : Stage} {content : Content} {contents : List Content}
    (h : stage.steps (content :: contents) = .ok last) :
    ∃ next, stage.step content = .ok next ∧ next.steps contents = .ok last := by
  rw [steps_cons] at h
  exact exists_of_bind_eq_ok h

theorem exists_of_atItem {first : Bool} {items : List Json} {stack : List Suspended}
    {contents : List Content} {result : Json}
    (h : (atItem first items stack).steps contents = .ok (.done result)) :
    (first = true ∧ ∃ rest, contents = .closing .square :: rest ∧
      (finish (.array items.reverse) stack).steps rest = .ok (.done result)) ∨
    (atValue (.list items :: stack)).steps contents = .ok (.done result) := by
  cases contents with
  | nil => cases h
  | cons content contents =>
    by_cases hc : content = .closing .square
    · subst hc
      cases first with
      | false => cases h
      | true => exact .inl ⟨rfl, contents, rfl, h⟩
    · rw [steps_cons, step_atItem hc] at h
      exact .inr h

theorem exists_of_atName {first : Bool} {members : List (Text × Json)} {stack : List Suspended}
    {contents : List Content} {result : Json}
    (h : (atName first members stack).steps contents = .ok (.done result)) :
    (first = true ∧ ∃ rest, contents = .closing .brace :: rest ∧
      (finish (.object members) stack).steps rest = .ok (.done result)) ∨
    ∃ name rest, contents = .string name :: .colon :: rest ∧
      (atValue (.record members name :: stack)).steps rest = .ok (.done result) := by
  cases contents with
  | nil => cases h
  | cons content contents =>
    obtain ⟨next, hs, h⟩ := exists_of_steps_cons h
    cases content with
    | string name =>
      cases hs
      cases contents with
      | nil => cases h
      | cons content contents =>
        obtain ⟨next, hs, h⟩ := exists_of_steps_cons h
        cases content <;> cases hs
        exact .inr ⟨name, contents, rfl, h⟩
    | closing bracket =>
      cases bracket <;> cases first <;> cases hs
      exact .inl ⟨rfl, contents, rfl, h⟩
    | unreadable quoted fault dead => cases quoted <;> cases hs
    | _ => cases hs

theorem itemsAhead_nil {done : List Json} {stack : List Suspended} {contents : List Content}
    {result : Json} (h : (finish (.array done.reverse) stack).steps contents = .ok (.done result)) :
    ItemsAhead done stack (.closing .square :: contents) result :=
  ⟨[], contents, rfl, by simp, by simpa using h⟩

theorem membersAhead_nil {done : List (Text × Json)} {stack : List Suspended}
    {contents : List Content} {result : Json}
    (h : (finish (.object done) stack).steps contents = .ok (.done result)) :
    MembersAhead done stack (.closing .brace :: contents) result :=
  ⟨[], contents, rfl, by simp, h⟩

structure Ahead (contents : List Content) : Prop where
  value : ∀ (stack : List Suspended) {result}, stack.length ≤ depthLimit →
    (atValue stack).steps contents = .ok (.done result) → ValueAhead stack contents result
  items : ∀ (done stack) {result}, stack.length + 1 ≤ depthLimit →
    (afterItem done stack).steps contents = .ok (.done result) →
      ItemsAhead done stack contents result
  members : ∀ (done stack) {result}, stack.length + 1 ≤ depthLimit →
    (afterMember done stack).steps contents = .ok (.done result) →
      MembersAhead done stack contents result

theorem room_of_opening {bracket : Bracket} {stack : List Suspended} {next : Stage}
    (h : (atValue stack).step (.opening bracket) = .ok next) :
    stack.length + 1 ≤ depthLimit ∧ next = opened stack bracket := by
  by_cases room : stack.length < depthLimit
  · rw [step_opening bracket stack room] at h
    exact ⟨room, (Except.ok.inj h).symm⟩
  · simp [step, begin, room] at h

theorem items_of_behind {contents : List Content}
    (behind : ∀ front fewer, front ≠ [] → contents = front ++ fewer → Ahead fewer)
    {done : List Json} {stack : List Suspended} {result : Json}
    (room : stack.length + 1 ≤ depthLimit)
    (h : (afterItem done stack).steps contents = .ok (.done result)) :
    ItemsAhead done stack contents result := by
  cases contents with
  | nil => cases h
  | cons content contents =>
    obtain ⟨next, hs, h⟩ := exists_of_steps_cons h
    cases content with
    | closing bracket =>
      cases bracket <;> cases hs
      exact itemsAhead_nil h
    | comma =>
      cases hs
      obtain ⟨first, -⟩ | h := exists_of_atItem h
      · cases first
      · have first := behind [.comma] contents (by simp) rfl
        obtain ⟨value, rest, rfl, deep, h⟩ := first.value (.list done :: stack) room h
        have others := behind (.comma :: value.contents) rest (by simp) rfl
        obtain ⟨items, rest, rfl, deeper, h⟩ := others.items _ stack room h
        refine ⟨value :: items, rest, by simp, ?_, by simpa using h⟩
        exact List.forall_mem_cons.mpr ⟨deep, deeper⟩
    | _ => cases hs

theorem members_of_behind {contents : List Content}
    (behind : ∀ front fewer, front ≠ [] → contents = front ++ fewer → Ahead fewer)
    {done : List (Text × Json)} {stack : List Suspended} {result : Json}
    (room : stack.length + 1 ≤ depthLimit)
    (h : (afterMember done stack).steps contents = .ok (.done result)) :
    MembersAhead done stack contents result := by
  cases contents with
  | nil => cases h
  | cons content contents =>
    obtain ⟨next, hs, h⟩ := exists_of_steps_cons h
    cases content with
    | closing bracket =>
      cases bracket <;> cases hs
      exact membersAhead_nil h
    | comma =>
      cases hs
      obtain ⟨first, -⟩ | ⟨name, contents, rfl, h⟩ := exists_of_atName h
      · cases first
      · have first := behind [.comma, .string name, .colon] contents (by simp) rfl
        obtain ⟨value, rest, rfl, deep, h⟩ := first.value (.record done name :: stack) room h
        have others :=
          behind (.comma :: .string name :: .colon :: value.contents) rest (by simp) rfl
        obtain ⟨members, rest, rfl, deeper, h⟩ := others.members _ stack room h
        refine ⟨(name, value) :: members, rest, by simp, ?_, h⟩
        exact List.forall_mem_cons.mpr ⟨deep, deeper⟩
    | _ => cases hs

theorem array_of_behind {contents : List Content} {stack : List Suspended} {result : Json}
    (room : stack.length + 1 ≤ depthLimit)
    (behind : ∀ front fewer, front ≠ [] → .opening .square :: contents = front ++ fewer →
      Ahead fewer)
    (h : (atItem true [] stack).steps contents = .ok (.done result)) :
    ValueAhead stack (.opening .square :: contents) result := by
  obtain ⟨-, rest, rfl, h⟩ | h := exists_of_atItem h
  · exact ⟨.array [], rest, rfl, room, h⟩
  · have first := behind [.opening .square] contents (by simp) rfl
    obtain ⟨value, rest, rfl, deep, h⟩ := first.value (.list [] :: stack) room h
    have others := behind (.opening .square :: value.contents) rest (by simp) rfl
    obtain ⟨items, rest, rfl, deeper, h⟩ := others.items _ stack room h
    refine ⟨.array (value :: items), rest, ?_, ?_, ?_⟩
    · simp [Json.contents, Json.contentsOfItems_eq_map, intercalate_cons, List.flatMap_map]
    · exact Json.add_depth_array_le (List.forall_mem_cons.mpr ⟨deep, deeper⟩) room
    · simpa [Json.merged, Json.mergedItems_eq_map] using h

theorem object_of_behind {contents : List Content} {stack : List Suspended} {result : Json}
    (room : stack.length + 1 ≤ depthLimit)
    (behind : ∀ front fewer, front ≠ [] → .opening .brace :: contents = front ++ fewer →
      Ahead fewer)
    (h : (atName true [] stack).steps contents = .ok (.done result)) :
    ValueAhead stack (.opening .brace :: contents) result := by
  obtain ⟨-, rest, rfl, h⟩ | ⟨name, contents, rfl, h⟩ := exists_of_atName h
  · exact ⟨.object [], rest, rfl, room, h⟩
  · have first := behind [.opening .brace, .string name, .colon] contents (by simp) rfl
    obtain ⟨value, rest, rfl, deep, h⟩ := first.value (.record [] name :: stack) room h
    have others :=
      behind (.opening .brace :: .string name :: .colon :: value.contents) rest (by simp) rfl
    obtain ⟨members, rest, rfl, deeper, h⟩ := others.members _ stack room h
    refine ⟨.object ((name, value) :: members), rest, ?_, ?_, h⟩
    · simp [Json.contents, Json.contentsOfMembers_eq_map, intercalate_cons, List.flatMap_map]
    · exact Json.add_depth_object_le (List.forall_mem_cons.mpr ⟨deep, deeper⟩) room

theorem value_of_behind {contents : List Content} (proper : ∀ c ∈ contents, c.IsProper)
    (behind : ∀ front fewer, front ≠ [] → contents = front ++ fewer → Ahead fewer)
    {stack : List Suspended} {result : Json} (room : stack.length ≤ depthLimit)
    (h : (atValue stack).steps contents = .ok (.done result)) :
    ValueAhead stack contents result := by
  cases contents with
  | nil => cases h
  | cons content contents =>
    obtain ⟨next, hs, h⟩ := exists_of_steps_cons h
    rw [List.forall_mem_cons] at proper
    cases content with
    | string value =>
      cases hs
      exact ⟨.text value, contents, rfl, room, h⟩
    | scalar value =>
      cases hs
      have := proper.1
      cases value with
      | null => exact ⟨.null, contents, rfl, room, h⟩
      | bool value => exact ⟨.bool value, contents, rfl, room, h⟩
      | number value => exact ⟨.number value, contents, rfl, room, h⟩
      | text | array | object => cases this
    | opening bracket =>
      obtain ⟨inner, rfl⟩ := room_of_opening hs
      cases bracket with
      | square => exact array_of_behind inner behind h
      | brace => exact object_of_behind inner behind h
    | _ => cases hs

theorem ahead {contents : List Content} (proper : ∀ c ∈ contents, c.IsProper) : Ahead contents := by
  -- A value may be left at any depth, so all that is behind any front is needed, not only the tail.
  induction hn : contents.length using Nat.strong_induction_on generalizing contents with
  | _ n ih =>
    have behind : ∀ front fewer, front ≠ [] → contents = front ++ fewer → Ahead fewer := by
      rintro front fewer some rfl
      rw [List.forall_mem_append] at proper
      rw [List.length_append] at hn
      have := List.length_pos_iff.mpr some
      exact ih fewer.length (by omega) proper.2 rfl
    exact ⟨fun _ _ => value_of_behind proper behind, fun _ _ _ => items_of_behind behind,
      fun _ _ _ => members_of_behind behind⟩

/-- The machine accepts exactly the contents of the values that are not too deep. -/
theorem steps_eq_done_iff {contents : List Content} (proper : ∀ c ∈ contents, c.IsProper)
    {result : Json} :
    (atValue []).steps contents = .ok (.done result) ↔
      ∃ value : Json, contents = value.contents ∧ value.depth ≤ depthLimit ∧
        value.merged = result := by
  constructor
  · intro h
    obtain ⟨value, rest, rfl, room, h⟩ := (ahead proper).value [] (Nat.zero_le _) h
    cases rest with
    | nil =>
      cases h
      exact ⟨value, by simp, by simpa using room, rfl⟩
    | cons content rest => cases h
  · rintro ⟨value, rfl, room, rfl⟩
    have h := reads value [] [] (by simpa using room)
    rwa [List.append_nil] at h

end Stage

namespace Json

theorem run_eq_ok_iff {size offset : Nat} {stage : Stage} {lexemes : List Lexeme} {value : Json} :
    run size offset stage lexemes = .ok value ↔
      stage.steps (lexemes.map Lexeme.content) = .ok (.done value) := by
  induction lexemes generalizing offset stage with
  | nil =>
    cases stage with
    | atItem first => cases first <;> simp [run, Stage.atEnd]
    | atName first => cases first <;> simp [run, Stage.atEnd]
    | _ => simp [run, Stage.atEnd]
  | cons lexeme lexemes ih =>
    rw [run, List.map_cons, Stage.steps_cons]
    cases stage.step lexeme.content with
    | ok next => exact ih
    | error fault => simp [bind, Except.bind]

theorem isReadable_of_step {stage next : Stage} {content : Content}
    (h : stage.step content = .ok next) : content.isReadable := by
  cases content with
  | unreadable quoted fault dead =>
    cases stage with
    | atItem first => cases first <;> cases h
    | atName first => cases first <;> cases quoted <;> cases h
    | _ => cases h
  | stray =>
    cases stage with
    | atItem first => cases first <;> cases h
    | atName first => cases first <;> cases h
    | _ => cases h
  | _ => rfl

theorem isReadable_of_steps {stage last : Stage} {contents : List Content}
    (h : stage.steps contents = .ok last) : ∀ content ∈ contents, content.isReadable := by
  induction contents generalizing stage with
  | nil => simp
  | cons content contents ih =>
    obtain ⟨next, hs, h⟩ := Stage.exists_of_steps_cons h
    exact List.forall_mem_cons.mpr ⟨isReadable_of_step hs, ih h⟩

theorem parse_nil : parse [] = .error ⟨.endInValue, 0⟩ := by
  simp [parse, Lexeme.lex, Lexeme.lexAfter, run, Stage.atEnd, byteSize]

/-- A text is accepted exactly if it spells out a value that is not too deep. -/
theorem parse_eq_ok_iff {text : Text} {value : Json} :
    parse text = .ok value ↔
      ∃ raw : Json, Spelled text raw.contents ∧ raw.depth ≤ Stage.depthLimit ∧
        raw.merged = value := by
  rw [parse, run_eq_ok_iff, ← contentsOf]
  constructor
  · intro h
    have spelled := Spelled.of_isReadable (isReadable_of_steps h)
    obtain ⟨raw, hraw, room, merged⟩ := (Stage.steps_eq_done_iff spelled.isProper).mp h
    exact ⟨raw, hraw ▸ spelled, room, merged⟩
  · rintro ⟨raw, spelled, room, merged⟩
    rw [spelled.contentsOf_eq]
    exact (Stage.steps_eq_done_iff spelled.isProper).mpr ⟨raw, rfl, room, merged⟩

end Json

end FeatureText
