import FeatureText.Proofs.Editor.Command

/-! Runs of commands from a new editor, and what was done last in a run. -/
namespace FeatureText.Editor

/-- A new editor, empty or with a text. -/
def IsNew (e : Editor) : Prop :=
  ∃ options clock, e = new options clock ∨ ∃ text, e = ofText options clock text

def run (e : Editor) (commands : List Command) : Editor :=
  commands.foldl (fun e command => (e.execute command).1) e

/-- Something is true of every command of a run, and of the state in front of it. -/
def Throughout (p : Editor → Command → Prop) (e : Editor) : List Command → Prop
  | [] => True
  | command :: more => p e command ∧ Throughout p (e.execute command).1 more

/-- Some command of a run was the one looked for, and since then something was true of every
command. -/
def Since (p : Editor → Command → Prop) (sought : Editor → Command → Prop) (start : Editor)
    (commands : List Command) : Prop :=
  ∃ before command after, commands = before ++ command :: after ∧
    sought (start.run before) command ∧ Throughout p (start.run (before ++ [command])) after

variable {start e : Editor} {p sought : Editor → Command → Prop} {commands : List Command}

@[simp] theorem run_nil (e : Editor) : e.run [] = e := rfl

@[simp] theorem run_append (e : Editor) (commands others : List Command) :
    e.run (commands ++ others) = (e.run commands).run others := List.foldl_append

@[simp] theorem run_singleton (e : Editor) (command : Command) :
    e.run [command] = (e.execute command).1 := rfl

theorem IsNew.reachable (h : start.IsNew) : start.Reachable := by
  obtain ⟨options, clock, rfl | ⟨text, rfl⟩⟩ := h
  · exact .new options clock
  · exact .ofText options clock text

theorem Reachable.run (h : e.Reachable) (commands : List Command) : (e.run commands).Reachable := by
  induction commands generalizing e with
  | nil => exact h
  | cons command commands ih => exact ih (h.step command)

theorem throughout_append (e : Editor) (commands others : List Command) :
    Throughout p e (commands ++ others) ↔
      Throughout p e commands ∧ Throughout p (e.run commands) others := by
  induction commands generalizing e with
  | nil => simp [Throughout, run]
  | cons command commands ih =>
    rw [List.cons_append, Throughout, Throughout, ih, and_assoc]
    rfl

theorem Throughout.run_induction {q : Editor → Prop} (h : Throughout p e commands) (holds : q e)
    (keeps : ∀ d command, q d → p d command → q (d.execute command).1) : q (e.run commands) := by
  induction commands generalizing e with
  | nil => exact holds
  | cons command commands ih => exact ih h.2 (keeps e command holds h.1)

theorem not_since_nil (start : Editor) : ¬Since p sought start [] := by
  rintro ⟨before, command, after, eq, -⟩
  simp at eq

theorem since_append_singleton (start : Editor) (commands : List Command) (command : Command) :
    Since p sought start (commands ++ [command]) ↔
      sought (start.run commands) command ∨
        p (start.run commands) command ∧ Since p sought start commands := by
  constructor
  · rintro ⟨before, found, after, eq, there, since⟩
    rcases List.eq_nil_or_concat after with rfl | ⟨more, last, rfl⟩
    · obtain ⟨rfl, same⟩ := List.append_inj' eq rfl
      cases same
      exact .inl there
    · rw [List.concat_eq_append] at eq since
      rw [← List.cons_append, ← List.append_assoc] at eq
      obtain ⟨rfl, same⟩ := List.append_inj' eq rfl
      cases same
      rw [throughout_append] at since
      rw [List.append_cons, run_append]
      exact .inr ⟨since.2.1, before, found, more, by simp, there, since.1⟩
  · rintro (there | ⟨last, before, found, after, rfl, there, since⟩)
    · exact ⟨commands, command, [], rfl, there, trivial⟩
    · refine ⟨before, found, after ++ [command], by simp, there, ?_⟩
      rw [throughout_append]
      rw [List.append_cons, run_append] at last
      exact ⟨since, last, trivial⟩

end FeatureText.Editor
