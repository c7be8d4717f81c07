import FeatureText.Time.Timeline
import Mathlib.Data.List.Basic

/-! The timeline as a line of states. Undo and redo only move the present along it; what is
remembered in front of the present and behind it never gets more than the limit allows, so nothing
falls off the line on the way. -/
namespace FeatureText.Timeline

variable {α : Type}

/-- The states in the order of time, with the present between past and future. -/
def states (t : Timeline α) (present : α) : List α := t.past.reverse ++ present :: t.future

/-- Goes some steps in one direction, each time with the state that the last step led to. -/
def walk (step : Timeline α → α → Option (α × Timeline α)) :
    Nat → α → Timeline α → Option (α × Timeline α)
  | 0, present, t => some (present, t)
  | n + 1, present, t => (step t present).bind fun (present, t) => walk step n present t

inductive Reachable (limit window : Nat) : Timeline α → Prop where
  | new : Reachable limit window (.new limit window)
  | record {t : Timeline α} (action : Action) (now : Nat) (before : α) :
    Reachable limit window t → Reachable limit window (t.record action now before).1
  | undo {t t' : Timeline α} {present entry : α} :
    Reachable limit window t → t.undo present = some (entry, t') → Reachable limit window t'
  | redo {t t' : Timeline α} {present entry : α} :
    Reachable limit window t → t.redo present = some (entry, t') → Reachable limit window t'
  | endStep {t : Timeline α} : Reachable limit window t → Reachable limit window t.endStep
  | clear {t : Timeline α} : Reachable limit window t → Reachable limit window t.clear

variable {t t' : Timeline α} {present entry : α}

theorem undo_eq_some_iff :
    t.undo present = some (entry, t') ↔
      t.past = entry :: t'.past ∧
        t' = { t with past := t'.past, future := present :: t.future, last := none } := by
  unfold undo
  constructor
  · intro h
    split at h
    · cases h
    · next past =>
      cases h
      exact ⟨past, rfl⟩
  · rintro ⟨past, eq⟩
    rw [past]
    exact congrArg (fun next => some (entry, next)) eq.symm

theorem redo_eq_some_iff :
    t.redo present = some (entry, t') ↔
      t.future = entry :: t'.future ∧
        t' = { t with past := t.remember present, future := t'.future, last := none } := by
  unfold redo
  constructor
  · intro h
    split at h
    · cases h
    · next future =>
      cases h
      exact ⟨future, rfl⟩
  · rintro ⟨future, eq⟩
    rw [future]
    exact congrArg (fun next => some (entry, next)) eq.symm

structure Fits (t : Timeline α) : Prop where
  pos : 0 < t.limit
  length_le : t.past.length + t.future.length ≤ t.limit

theorem remember_of_lt (h : t.past.length < t.limit) : t.remember present = present :: t.past :=
  List.take_of_length_le h

theorem length_remember_le (t : Timeline α) (present : α) :
    (t.remember present).length ≤ t.limit :=
  List.length_take_le _ _

/-- What lies ahead makes room for the present behind. -/
theorem Fits.remember_of_redo (h : t.Fits) (redone : t.redo present = some (entry, t')) :
    t.remember present = present :: t.past := by
  have future := congrArg List.length (redo_eq_some_iff.mp redone).1
  rw [List.length_cons] at future
  have := h.length_le
  exact remember_of_lt (by omega)

theorem Fits.past_of_redo (h : t.Fits) (redone : t.redo present = some (entry, t')) :
    t'.past = present :: t.past := by
  have eq := (redo_eq_some_iff.mp redone).2
  rw [eq]
  exact h.remember_of_redo redone

theorem Fits.of_undo (h : t.Fits) (undone : t.undo present = some (entry, t')) : t'.Fits := by
  obtain ⟨past, eq⟩ := undo_eq_some_iff.mp undone
  have length := h.length_le
  rw [past, List.length_cons] at length
  rw [eq]
  exact ⟨h.pos, by simp only [List.length_cons]; omega⟩

theorem Fits.of_redo (h : t.Fits) (redone : t.redo present = some (entry, t')) : t'.Fits := by
  obtain ⟨future, eq⟩ := redo_eq_some_iff.mp redone
  have length := h.length_le
  rw [future, List.length_cons] at length
  rw [eq, h.remember_of_redo redone]
  exact ⟨h.pos, by simp only [List.length_cons]; omega⟩

theorem Fits.record (h : t.Fits) (action : Action) (now : Nat) (before : α) :
    (t.record action now before).1.Fits := by
  refine ⟨h.pos, ?_⟩
  have length := h.length_le
  unfold Timeline.record
  dsimp only
  split
  · exact t.length_remember_le before
  · simp only [List.length_nil]
    omega

theorem Reachable.limit_eq {limit window : Nat} (h : Reachable limit window t) :
    t.limit = max limit 1 := by
  induction h with
  | new => rfl
  | record _ _ _ _ ih => exact ih
  | undo _ undone ih => rw [(undo_eq_some_iff.mp undone).2]; exact ih
  | redo _ redone ih => rw [(redo_eq_some_iff.mp redone).2]; exact ih
  | endStep _ ih => exact ih
  | clear _ ih => exact ih

theorem Reachable.fits {limit window : Nat} (h : Reachable limit window t) : t.Fits := by
  induction h with
  | new => exact ⟨Nat.lt_of_lt_of_le Nat.zero_lt_one (Nat.le_max_right ..), Nat.zero_le _⟩
  | record action now before _ ih => exact ih.record action now before
  | undo _ undone ih => exact ih.of_undo undone
  | redo _ redone ih => exact ih.of_redo redone
  | endStep _ ih => exact ⟨ih.pos, ih.length_le⟩
  | clear _ ih => exact ⟨ih.pos, Nat.zero_le _⟩

theorem states_of_undo (undone : t.undo present = some (entry, t')) :
    t'.states entry = t.states present := by
  obtain ⟨past, eq⟩ := undo_eq_some_iff.mp undone
  have future := congrArg Timeline.future eq
  simp [states, past, future]

theorem Fits.states_of_redo (h : t.Fits) (redone : t.redo present = some (entry, t')) :
    t'.states entry = t.states present := by
  simp [states, (redo_eq_some_iff.mp redone).1, h.past_of_redo redone]

/-- All that is remembered has a property. -/
def Holds (p : α → Prop) (t : Timeline α) : Prop := (∀ s ∈ t.past, p s) ∧ ∀ s ∈ t.future, p s

section Holds

variable {p : α → Prop}

theorem Holds.remember (h : t.Holds p) (hp : p present) : ∀ s ∈ t.remember present, p s :=
  fun s hs => List.forall_mem_cons.mpr ⟨hp, h.1⟩ s (List.mem_of_mem_take hs)

theorem Holds.record (h : t.Holds p) (hp : p present) (action : Action) (now : Nat) :
    (t.record action now present).1.Holds p := by
  refine ⟨?_, List.forall_mem_nil p⟩
  unfold Timeline.record
  dsimp only
  split
  · exact h.remember hp
  · exact h.1

theorem Holds.of_undo (h : t.Holds p) (hp : p present)
    (undone : t.undo present = some (entry, t')) : p entry ∧ t'.Holds p := by
  obtain ⟨past, eq⟩ := undo_eq_some_iff.mp undone
  obtain ⟨first, rest⟩ := List.forall_mem_cons.mp (past ▸ h.1)
  rw [eq]
  exact ⟨first, rest, List.forall_mem_cons.mpr ⟨hp, h.2⟩⟩

theorem Holds.of_redo (h : t.Holds p) (hp : p present)
    (redone : t.redo present = some (entry, t')) : p entry ∧ t'.Holds p := by
  obtain ⟨future, eq⟩ := redo_eq_some_iff.mp redone
  obtain ⟨first, rest⟩ := List.forall_mem_cons.mp (future ▸ h.2)
  rw [eq]
  exact ⟨first, h.remember hp, rest⟩

theorem holds_clear (p : α → Prop) (t : Timeline α) : t.clear.Holds p :=
  ⟨List.forall_mem_nil p, List.forall_mem_nil p⟩

end Holds

theorem Fits.redo_of_undo (h : t.Fits) (undone : t.undo present = some (entry, t')) :
    t'.redo entry = some (present, t.endStep) := by
  obtain ⟨past, eq⟩ := undo_eq_some_iff.mp undone
  have room : t'.past.length < t'.limit := by
    have length := h.length_le
    rw [past, List.length_cons] at length
    rw [congrArg Timeline.limit eq]
    dsimp only
    omega
  refine redo_eq_some_iff.mpr ⟨congrArg Timeline.future eq, ?_⟩
  rw [remember_of_lt room, ← past, eq]
  rfl

theorem walk_succ (step : Timeline α → α → Option (α × Timeline α)) (n : Nat) (present : α)
    (t : Timeline α) :
    walk step (n + 1) present t =
      (walk step n present t).bind fun (present, t) => step t present := by
  induction n generalizing present t with
  | zero => cases h : step t present <;> simp [walk, h]
  | succ n ih =>
    rw [walk]
    cases h : step t present with
    | none => simp [walk, h]
    | some next => simp [walk, h, ← ih]

theorem redo_endStep (t : Timeline α) (present : α) : t.endStep.redo present = t.redo present := rfl

theorem exists_undo_of_pos (present : α) (h : 0 < t.past.length) :
    ∃ entry t', t.undo present = some (entry, t') := by
  obtain ⟨entry, rest, past⟩ := List.exists_cons_of_length_pos h
  exact ⟨entry, { t with past := rest, future := present :: t.future, last := none },
    undo_eq_some_iff.mpr ⟨past, rfl⟩⟩

theorem Fits.exists_walk (h : t.Fits) (present : α) {n : Nat} (hn : n ≤ t.past.length) :
    ∃ entry back again, walk undo n present t = some (entry, back) ∧
      walk redo n entry back = some (present, again) ∧ again.endStep = t.endStep := by
  induction n generalizing t present with
  | zero => exact ⟨present, t, t, rfl, rfl, rfl⟩
  | succ n ih =>
    obtain ⟨first, next, undone⟩ := exists_undo_of_pos present (Nat.zero_lt_of_lt hn)
    rw [(undo_eq_some_iff.mp undone).1, List.length_cons] at hn
    obtain ⟨entry, back, again, there, home, same⟩ :=
      ih (h.of_undo undone) first (Nat.le_of_succ_le_succ hn)
    refine ⟨entry, back, t.endStep, ?_, ?_, rfl⟩
    · rw [walk, undone]
      exact there
    · calc walk redo (n + 1) entry back
        _ = again.redo first := by rw [walk_succ, home]; rfl
        _ = next.redo first := by rw [← redo_endStep, same, redo_endStep]
        _ = some (present, t.endStep) := h.redo_of_undo undone

/-- Undo and redo only walk along the states; nothing is lost at the limit, and as many steps ahead
as there were back lead to the same place. -/
theorem undo_redo_walk_along {limit window : Nat} {t : Timeline α}
    (reachable : Reachable limit window t) :
    t.past.length + t.future.length ≤ max limit 1 ∧
      (∀ present entry t', t.undo present = some (entry, t') →
        t'.states entry = t.states present) ∧
      (∀ present entry t', t.redo present = some (entry, t') →
        t'.past = present :: t.past ∧ t'.states entry = t.states present) ∧
      ∀ present, ∀ n ≤ t.past.length,
        ∃ entry back again, walk undo n present t = some (entry, back) ∧
          walk redo n entry back = some (present, again) ∧
          again.past = t.past ∧ again.future = t.future := by
  have fits := reachable.fits
  refine ⟨reachable.limit_eq ▸ fits.length_le, ?_, ?_, ?_⟩
  · intro present entry t' undone
    exact states_of_undo undone
  · intro present entry t' redone
    exact ⟨fits.past_of_redo redone, fits.states_of_redo redone⟩
  · intro present n hn
    obtain ⟨entry, back, again, there, home, same⟩ := fits.exists_walk present hn
    have past : again.endStep.past = t.endStep.past := by rw [same]
    have future : again.endStep.future = t.endStep.future := by rw [same]
    exact ⟨entry, back, again, there, home, past, future⟩

def kept (time : Nat) : Snapshot := ⟨[[]], .origin, time, []⟩

def full : Timeline Snapshot :=
  ((((new 2 500).record .write 0 (kept 0)).1.record .write 1 (kept 1)).1.record .write 2
    (kept 2)).1

theorem reachable_full : Reachable 2 500 full := .record _ _ _ (.record _ _ _ (.record _ _ _ .new))

def undone : Timeline Snapshot := { full with past := [kept 1], future := [kept 3], last := none }

theorem undo_full : full.undo (kept 3) = some (kept 2, undone) := rfl

theorem undo_redo_walk_along_full :
    full.past.length + full.future.length ≤ 2 ∧
      undone.states (kept 2) = full.states (kept 3) ∧
      (full.endStep.past = kept 2 :: undone.past ∧
        full.endStep.states (kept 3) = undone.states (kept 2)) ∧
      ∃ entry back again, walk undo 2 (kept 3) full = some (entry, back) ∧
        walk redo 2 entry back = some (kept 3, again) ∧
        again.past = full.past ∧ again.future = full.future := by
  obtain ⟨room, undo, -, round⟩ := undo_redo_walk_along reachable_full
  obtain ⟨-, -, redo, -⟩ := undo_redo_walk_along (.undo reachable_full undo_full)
  exact ⟨room, undo _ _ _ undo_full, redo (kept 2) (kept 3) full.endStep rfl,
    round (kept 3) 2 (by decide)⟩

end FeatureText.Timeline
