import FeatureText.Proofs.Time.Timeline
import Mathlib.Data.List.Induction

/-! Runs of recorded actions. The calls made before tell which action opens a step, and the past is
what was kept with the steps that were opened, as much of it as the limit allows. -/
namespace FeatureText.Timeline

variable {α : Type}

structure Note (α : Type) where
  action : Action
  time : Nat
  before : α

inductive Call (α : Type) where
  | record (note : Note α)
  | undo (present : α)
  | redo (present : α)
  | endStep
  | clear

/-- Undo and redo leave the timeline alone if there is nothing to bring back. -/
def call (t : Timeline α) : Call α → Timeline α
  | .record note => (t.record note.action note.time note.before).1
  | .undo present => ((t.undo present).map Prod.snd).getD t
  | .redo present => ((t.redo present).map Prod.snd).getD t
  | .endStep => t.endStep
  | .clear => t.clear

def after (limit window : Nat) (calls : List (Call α)) : Timeline α :=
  calls.foldl call (new limit window)

/-- The step of an action is open: no call came after it but undo and redo without effect. -/
inductive Open (limit window : Nat) : List (Call α) → Note α → Prop where
  | record (calls : List (Call α)) (note : Note α) :
    Open limit window (calls ++ [.record note]) note
  | undo {calls : List (Call α)} {note : Note α} {present : α} :
    Open limit window calls note → (after limit window calls).undo present = none →
      Open limit window (calls ++ [.undo present]) note
  | redo {calls : List (Call α)} {note : Note α} {present : α} :
    Open limit window calls note → (after limit window calls).redo present = none →
      Open limit window (calls ++ [.redo present]) note

/-- An action opens a step unless it continues, soon enough, an action of its kind whose step is
open and can be undone. -/
def Opens (limit window : Nat) (calls : List (Call α)) (note : Note α) : Prop :=
  ¬(note.action.isGroupable ∧ (after limit window calls).past ≠ [] ∧
    ∃ last, Open limit window calls last ∧ last.action = note.action ∧
      note.time - last.time < window)

theorem last_of_undo {t t' : Timeline α} {present entry : α}
    (undone : t.undo present = some (entry, t')) : t'.last = none :=
  congrArg last (undo_eq_some_iff.mp undone).2

theorem last_of_redo {t t' : Timeline α} {present entry : α}
    (redone : t.redo present = some (entry, t')) : t'.last = none :=
  congrArg last (redo_eq_some_iff.mp redone).2

section After

variable {limit window : Nat} {calls : List (Call α)}

@[simp] theorem after_nil : after limit window ([] : List (Call α)) = new limit window := rfl

@[simp] theorem after_append_singleton (calls : List (Call α)) (c : Call α) :
    after limit window (calls ++ [c]) = (after limit window calls).call c := by
  simp [after]

theorem reachable_after (limit window : Nat) (calls : List (Call α)) :
    Reachable limit window (after limit window calls) := by
  induction calls using List.reverseRecOn with
  | nil => exact .new
  | append_singleton calls c ih =>
    rw [after_append_singleton]
    cases c with
    | record note => exact ih.record note.action note.time note.before
    | undo present =>
      cases h : (after limit window calls).undo present with
      | none => simpa [call, h] using ih
      | some back => simpa [call, h] using ih.undo h
    | redo present =>
      cases h : (after limit window calls).redo present with
      | none => simpa [call, h] using ih
      | some ahead => simpa [call, h] using ih.redo h
    | endStep => exact ih.endStep
    | clear => exact ih.clear

theorem window_after (limit window : Nat) (calls : List (Call α)) :
    (after limit window calls).window = window := by
  have reachable := reachable_after limit window calls
  generalize after limit window calls = t at reachable
  induction reachable with
  | new => rfl
  | record _ _ _ _ ih => exact ih
  | undo _ undone ih => rw [(undo_eq_some_iff.mp undone).2]; exact ih
  | redo _ redone ih => rw [(redo_eq_some_iff.mp redone).2]; exact ih
  | endStep _ ih => exact ih
  | clear _ ih => exact ih

theorem Open.last_eq {note : Note α} (h : Open limit window calls note) :
    (after limit window calls).last = some (note.action, note.time) := by
  induction h with
  | record => simp [call, Timeline.record]
  | undo _ none ih => simpa [call, none] using ih
  | redo _ none ih => simpa [call, none] using ih

/-- What the timeline knows of the last action is what the calls before say. -/
theorem last_after_eq_some_iff {action : Action} {time : Nat} :
    (after limit window calls).last = some (action, time) ↔
      ∃ note, Open limit window calls note ∧ note.action = action ∧ note.time = time := by
  refine ⟨fun h => ?_, ?_⟩
  · induction calls using List.reverseRecOn with
    | nil => simp [new] at h
    | append_singleton calls c ih =>
      rw [after_append_singleton] at h
      cases c with
      | record note =>
        obtain ⟨rfl, rfl⟩ : note.action = action ∧ note.time = time := by
          simpa [call, Timeline.record] using h
        exact ⟨note, .record calls note, rfl, rfl⟩
      | undo present =>
        cases undone : (after limit window calls).undo present with
        | none =>
          obtain ⟨note, opened, same⟩ := ih (by simpa [call, undone] using h)
          exact ⟨note, opened.undo undone, same⟩
        | some back => simp [call, undone, last_of_undo undone] at h
      | redo present =>
        cases redone : (after limit window calls).redo present with
        | none =>
          obtain ⟨note, opened, same⟩ := ih (by simpa [call, redone] using h)
          exact ⟨note, opened.redo redone, same⟩
        | some ahead => simp [call, redone, last_of_redo redone] at h
      | endStep => simp [call, endStep] at h
      | clear => simp [call, clear] at h
  · rintro ⟨note, opened, rfl, rfl⟩
    exact opened.last_eq

theorem joins_after_iff (note : Note α) :
    (after limit window calls).joins note.action note.time ↔ ¬Opens limit window calls note := by
  rw [Opens, not_not, joins, window_after]
  simp only [Bool.and_eq_true, canUndo, Bool.not_eq_true', List.isEmpty_eq_false_iff, and_assoc]
  refine and_congr_right fun _ => and_congr_right fun _ => ?_
  constructor
  · intro h
    cases known : (after limit window calls).last with
    | none => simp [known] at h
    | some last =>
      obtain ⟨action, time⟩ := last
      obtain ⟨last, opened, rfl, rfl⟩ := last_after_eq_some_iff.mp known
      exact ⟨last, opened, by simpa [known] using h⟩
  · rintro ⟨last, opened, same, soon⟩
    simp [opened.last_eq, same, soon]

instance (note : Note α) : Decidable (Opens limit window calls note) :=
  decidable_of_iff (¬(after limit window calls).joins note.action note.time)
    ((not_congr (joins_after_iff note)).trans not_not)

theorem opens_iff (note : Note α) :
    ((after limit window calls).record note.action note.time note.before).2 ↔
      Opens limit window calls note := by
  rw [record, Bool.not_eq_true', ← Bool.not_eq_true, joins_after_iff, not_not]

theorem past_record (note : Note α) :
    (after limit window (calls ++ [.record note])).past =
      if Opens limit window calls note then (after limit window calls).remember note.before
      else (after limit window calls).past := by
  simp only [after_append_singleton, call, record, ← opens_iff]

end After

/-- The actions of a run that open a step, after the calls before it. -/
def opened (limit window : Nat) (calls : List (Call α)) : List (Note α) → List (Note α)
  | [] => []
  | note :: notes =>
    (if Opens limit window calls note then [note] else []) ++
      opened limit window (calls ++ [.record note]) notes

section Opened

variable {limit window : Nat}

theorem future_after_records (calls : List (Call α)) {notes : List (Note α)} (h : notes ≠ []) :
    (after limit window (calls ++ notes.map .record)).future = [] := by
  obtain ⟨front, note, rfl⟩ := (List.eq_nil_or_concat notes).resolve_left h
  simp [← List.append_assoc, call, record]

theorem take_append_take (n : Nat) (front back : List α) :
    (front ++ back.take n).take n = (front ++ back).take n := by
  have least : min (n - front.length) n = n - front.length := by omega
  rw [List.take_append, List.take_append, List.take_take, least]

theorem past_after_records (calls : List (Call α)) (notes : List (Note α)) :
    (after limit window (calls ++ notes.map .record)).past =
      (((opened limit window calls notes).map Note.before).reverse ++
        (after limit window calls).past).take (max limit 1) := by
  have limit_eq := (reachable_after limit window calls).limit_eq
  induction notes generalizing calls with
  | nil =>
    have room := (reachable_after limit window calls).fits.length_le
    have fits : (after limit window calls).past.length ≤ max limit 1 := by omega
    simp only [opened, List.map_nil, List.append_nil, List.reverse_nil, List.nil_append,
      List.take_of_length_le fits]
  | cons note notes ih =>
    have step := ih (calls ++ [.record note]) (reachable_after limit window _).limit_eq
    rw [List.append_assoc, List.singleton_append] at step
    rw [List.map_cons, step, past_record, opened]
    split
    · simp only [List.singleton_append, List.map_cons, List.reverse_cons, List.append_assoc,
        remember, limit_eq, take_append_take]
    · rfl

theorem past_record_ne_nil (calls : List (Call α)) (note : Note α) :
    (after limit window (calls ++ [.record note])).past ≠ [] := by
  rw [past_record]
  split
  · have := (reachable_after limit window calls).fits.pos
    simp [remember]
    omega
  · next joined => exact (not_not.mp joined).2.1

/-- All actions of the run are of one kind, each within the window after the one before it. -/
def IsBrisk (window : Nat) (action : Action) (notes : List (Note α)) : Prop :=
  (∀ note ∈ notes, note.action = action) ∧
    notes.IsChain fun last note => note.time - last.time < window

theorem opened_of_isBrisk {action : Action} (groupable : action.isGroupable)
    (calls : List (Call α)) {last : Note α} {notes : List (Note α)}
    (brisk : IsBrisk window action (last :: notes)) :
    opened limit window (calls ++ [.record last]) notes = [] := by
  induction notes generalizing calls last with
  | nil => rfl
  | cons note notes ih =>
    obtain ⟨same, near⟩ := brisk
    rw [List.forall_mem_cons, List.forall_mem_cons] at same
    rw [List.isChain_cons_cons] at near
    have joined : ¬Opens limit window (calls ++ [.record last]) note := by
      rw [Opens, not_not, same.2.1]
      exact ⟨groupable, past_record_ne_nil calls last, last, .record calls last, same.1, near.1⟩
    rw [opened, if_neg joined, List.nil_append]
    apply ih
    exact ⟨List.forall_mem_cons.mpr same.2, near.2⟩

/-- A run of recorded actions adds the states of those that open a step, and the calls before an
action tell whether it does. Of a brisk run only the first action can. -/
theorem records_decide_past (limit window : Nat) (calls : List (Call α)) (notes : List (Note α)) :
    (after limit window (calls ++ notes.map .record)).past =
        (((opened limit window calls notes).map Note.before).reverse ++
          (after limit window calls).past).take (max limit 1) ∧
      (notes ≠ [] → (after limit window (calls ++ notes.map .record)).future = []) ∧
      (∀ note : Note α,
        ((after limit window calls).record note.action note.time note.before).2 ↔
          Opens limit window calls note) ∧
      ∀ action : Action, action.isGroupable → IsBrisk window action notes →
        opened limit window calls notes <+: notes.take 1 := by
  refine ⟨past_after_records calls notes, future_after_records calls, opens_iff, ?_⟩
  intro action groupable brisk
  cases notes with
  | nil => simp [opened]
  | cons note notes =>
    rw [opened, opened_of_isBrisk groupable calls brisk]
    split <;> simp

def pastedBack : List (Call Snapshot) := [.record ⟨.paste, 0, kept 0⟩, .undo (kept 1)]

def typed : List (Note Snapshot) :=
  [⟨.insert, 100, kept 2⟩, ⟨.insert, 500, kept 3⟩, ⟨.insert, 900, kept 4⟩]

theorem isBrisk_typed : IsBrisk 500 .insert typed := by
  constructor
  · decide
  · simp [typed]

theorem records_decide_past_typed :
    (after 2 500 (pastedBack ++ typed.map .record)).past =
        (((opened 2 500 pastedBack typed).map Note.before).reverse ++
          (after 2 500 pastedBack).past).take 2 ∧
      typed ≠ [] ∧ (after 2 500 (pastedBack ++ typed.map .record)).future = [] ∧
      (((after 2 500 pastedBack).record .insert 100 (kept 2)).2 ↔
        Opens 2 500 pastedBack ⟨.insert, 100, kept 2⟩) ∧
      Action.insert.isGroupable ∧ IsBrisk 500 .insert typed ∧
      opened 2 500 pastedBack typed <+: typed.take 1 := by
  obtain ⟨past, future, opens, brisk⟩ := records_decide_past 2 500 pastedBack typed
  have notEmpty : typed ≠ [] := List.cons_ne_nil _ _
  exact ⟨past, notEmpty, future notEmpty, opens ⟨.insert, 100, kept 2⟩, rfl, isBrisk_typed,
    brisk .insert rfl isBrisk_typed⟩

example : (opened 2 500 pastedBack typed).map Note.before = [kept 2] := rfl

end Opened

end FeatureText.Timeline
