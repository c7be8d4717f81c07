import FeatureText.Proofs.Editor.Outcome
import FeatureText.Proofs.Editor.Run

/-! When events are told. An update asks for an event a while later, and puts it off if one is
already waited for. Nothing but publishing tells an event, and nothing else makes a difference. -/
namespace FeatureText.Editor

def listening (e : Editor) : Editor := { e with subscribers := [[]], outbox := [] }

/-- What a subscriber would be told in the course of a command. -/
def heard (e : Editor) (command : Command) : List Event :=
  (e.listening.execute command).1.outbox.map Delivery.event

/-- Neither the document nor what is told of it is different, or going to be. -/
structure Calm (e : Editor) (command : Command) (e' : Editor) : Prop where
  options : e'.options = e.options
  buffer : e'.buffer = e.buffer
  hidden : e'.hidden = e.hidden
  emission : e'.emission = e.emission
  outbox : e'.outbox = e.outbox ∨ command = .collect ∧ e'.outbox = []
  lastEvent : e'.lastEvent = e.lastEvent

/-- An update was made in a run of commands, and no event was heard since. -/
def Unreported (start : Editor) (commands : List Command) : Prop :=
  Since (fun e command => e.heard command = []) Updates start commands

/-- The last update of a run of commands was made at a time, and no event was heard since. -/
def Awaits (start : Editor) (commands : List Command) (time : Nat) : Prop :=
  Since (fun e command => ¬e.Updates command ∧ e.heard command = [])
    (fun e command => e.Updates command ∧ e.clock.now = time) start commands

variable {start e e' : Editor} {command : Command}

theorem silent_write (e : Editor) (features : List Json) (hidden : HiddenSet)
    (rule : CollapseRule) : Silent e.scheduled (e.write features hidden rule) := by
  have settled : Silent e.scheduled (e.rewritten features hidden).settle :=
    Silent.settle ⟨rfl, rfl, rfl, rfl, rfl, rfl⟩
  rw [write_eq]
  cases rule with
  | unchanged => exact settled
  | _ => exact ⟨settled.options, settled.clock, settled.emission, settled.subscribers,
      settled.outbox, settled.lastEvent⟩

theorem Publishes.not_updates (h : e.Publishes command) : ¬e.Updates command := by
  cases command with
  | emit | poll => exact id
  | _ => exact h.elim

theorem silent_of_updates (h : e.Updates command) :
    Silent e.scheduled (e.execute command).1 := by
  have outcome := outcome_execute e command
  generalize (e.execute command).1 = e' at outcome ⊢
  cases outcome with
  | edited _ silent => exact silent.settle
  | written _ features hidden rule => exact silent_write e features hidden rule
  | toggled => exact ⟨rfl, rfl, rfl, rfl, rfl, rfl⟩
  | refolded rests | steered rests | idled rests | published rests => exact absurd h rests

theorem execute_of_publishes (h : e.Publishes command) : (e.execute command).1 = e.emit.1 := by
  have outcome := outcome_execute e command
  generalize (e.execute command).1 = e' at outcome ⊢
  cases outcome with
  | published => rfl
  | edited updates | written updates | toggled updates => exact absurd updates h.not_updates
  | refolded _ untold | steered _ untold | idled _ untold => exact absurd h untold

/-- Any other command makes no difference to what is told, nor to when. -/
theorem calm_execute (rests : ¬e.Updates command) (untold : ¬e.Publishes command) :
    Calm e command (e.execute command).1 := by
  have outcome := outcome_execute e command
  generalize (e.execute command).1 = e' at outcome ⊢
  cases outcome with
  | edited updates | written updates | toggled updates => exact absurd updates rests
  | refolded | steered => exact ⟨rfl, rfl, rfl, rfl, .inl rfl, rfl⟩
  | idled _ _ idle =>
    exact ⟨idle.options, idle.buffer, idle.hidden, idle.emission, idle.outbox, idle.lastEvent⟩
  | published _ publishes => exact absurd publishes untold

theorem reformat_listening (e : Editor) (text : Text) :
    e.listening.reformat text = (e.reformat text).listening := by
  unfold reformat recompute listening
  dsimp only
  split <;> rfl

theorem review_listening (e : Editor) :
    e.listening.review = (e.review.1.listening, e.review.2) := by
  have kept (text : Text) :
      (if text = e.buffer.text then e.listening else e.listening.reformat text) =
        (if text = e.buffer.text then e else e.reformat text).listening := by
    split
    · rfl
    · exact reformat_listening e text
  have text : e.listening.buffer.text = e.buffer.text := rfl
  have options : e.listening.options = e.options := rfl
  unfold review
  simp only [text, options]
  split
  · rfl
  · simp only [kept]
    split <;> rfl

theorem heard_of_publishes (h : e.Publishes command) : e.heard command = [e.emit.2] := by
  have listens : e.listening.Publishes command := by cases command <;> exact h
  let quiet : Editor := { e with emission := e.emission.cancel }
  have told : e.listening.emit.1 = quiet.review.1.listening.deliver quiet.review.2 := by
    change quiet.listening.publish.1 = _
    rw [publish, review_listening]
  rw [heard, execute_of_publishes listens, told]
  rfl

theorem heard_of_not_publishes (h : ¬e.Publishes command) : e.heard command = [] := by
  have deaf : ¬e.listening.Publishes command := by cases command <;> exact h
  rw [heard, List.map_eq_nil_iff]
  by_cases updates : e.listening.Updates command
  · exact (silent_of_updates updates).outbox
  · rcases (calm_execute updates deaf).outbox with same | ⟨-, collected⟩
    · exact same
    · exact collected

theorem heard_eq_nil_iff : e.heard command = [] ↔ ¬e.Publishes command := by
  by_cases publishes : e.Publishes command
  · simp [heard_of_publishes publishes, publishes]
  · simp [heard_of_not_publishes publishes, publishes]

theorem silent_reformat (e : Editor) (text : Text) : Silent e (e.reformat text) := by
  have refilled : Silent e { e.refilled text with version := e.version + 1 } :=
    ⟨rfl, rfl, rfl, rfl, rfl, rfl⟩
  have recomputed := refilled.trans (silent_recompute _)
  exact recomputed.trans ⟨rfl, rfl, rfl, rfl, rfl, rfl⟩

theorem silent_review (e : Editor) : Silent e e.review.1 := by
  have kept (text : Text) :
      Silent e (if text = e.buffer.text then e else e.reformat text) := by
    split
    · exact .refl e
    · exact silent_reformat e text
  unfold review
  dsimp only
  split
  · exact .refl e
  · split <;> exact kept _

theorem emission_of_updates (h : e.Updates command) :
    (e.execute command).1.emission = e.emission.schedule e.clock.now :=
  (silent_of_updates h).emission

theorem emission_emit (e : Editor) : e.emit.1.emission = e.emission.cancel :=
  (silent_review { e with emission := e.emission.cancel }).emission

theorem emission_of_calm (rests : ¬e.Updates command) (unheard : e.heard command = []) :
    (e.execute command).1.emission = e.emission :=
  (calm_execute rests (heard_eq_nil_iff.mp unheard)).emission

theorem outbox_emit (e : Editor) :
    e.emit.1.outbox = e.outbox ++ e.subscribers.map (⟨·, e.emit.2⟩) := by
  let quiet : Editor := { e with emission := e.emission.cancel }
  have told : e.emit.1.outbox =
      quiet.review.1.outbox ++ quiet.review.1.subscribers.map (⟨·, e.emit.2⟩) := rfl
  rw [told, (silent_review quiet).outbox, (silent_review quiet).subscribers]

theorem outbox_execute (e : Editor) (keeps : command ≠ .collect) :
    (e.execute command).1.outbox =
      e.outbox ++ (e.heard command).flatMap fun event => e.subscribers.map (⟨·, event⟩) := by
  by_cases publishes : e.Publishes command
  · rw [execute_of_publishes publishes, heard_of_publishes publishes, outbox_emit]
    simp
  · rw [heard_of_not_publishes publishes, List.flatMap_nil, List.append_nil]
    by_cases updates : e.Updates command
    · exact (silent_of_updates updates).outbox
    · rcases (calm_execute updates publishes).outbox with same | ⟨collects, -⟩
      · exact same
      · exact absurd collects keeps

theorem delay_execute (e : Editor) (command : Command) :
    (e.execute command).1.emission.delay = e.emission.delay := by
  by_cases updates : e.Updates command
  · rw [emission_of_updates updates]
    rfl
  by_cases publishes : e.Publishes command
  · rw [execute_of_publishes publishes, emission_emit]
    rfl
  · rw [(calm_execute updates publishes).emission]

theorem delay_run (e : Editor) (commands : List Command) :
    (e.run commands).emission.delay = e.emission.delay := by
  induction commands generalizing e with
  | nil => rfl
  | cons command commands ih => exact (ih _).trans (e.delay_execute command)

theorem IsNew.emission (h : start.IsNew) : start.emission = .new start.options.emitDelay := by
  have made (options : Options) (clock : Clock) :
      (Editor.new options clock).emission = .new options.emitDelay ∧
        (Editor.new options clock).options = options :=
    ⟨(silent_recompute _).emission, (silent_recompute _).options⟩
  obtain ⟨options, clock, rfl | ⟨text, rfl⟩⟩ := h
  · rw [(made options clock).1, (made options clock).2]
  · have silent := silent_recompute { new options clock with buffer := .ofText text }
    rw [ofText, silent.emission, silent.options, (made options clock).2]
    exact (made options clock).1

theorem unreported_append_singleton (start : Editor) (commands : List Command)
    (command : Command) :
    Unreported start (commands ++ [command]) ↔
      (start.run commands).Updates command ∨
        (start.run commands).heard command = [] ∧ Unreported start commands :=
  since_append_singleton start commands command

theorem awaits_append_singleton (start : Editor) (commands : List Command) (command : Command)
    (time : Nat) :
    Awaits start (commands ++ [command]) time ↔
      ((start.run commands).Updates command ∧ (start.run commands).clock.now = time) ∨
        (¬(start.run commands).Updates command ∧ (start.run commands).heard command = []) ∧
          Awaits start commands time :=
  since_append_singleton start commands command

theorem unreported_iff_exists_awaits (start : Editor) (commands : List Command) :
    Unreported start commands ↔ ∃ time, Awaits start commands time := by
  induction commands using List.reverseRecOn with
  | nil =>
    refine iff_of_false start.not_since_nil ?_
    rintro ⟨time, awaits⟩
    exact start.not_since_nil awaits
  | append_singleton commands command ih =>
    simp only [unreported_append_singleton, awaits_append_singleton, ih]
    by_cases updates : (start.run commands).Updates command
    · simp [updates]
    · simp [updates]

/-- An event is due as long after the last update that no event was heard of as the options say. -/
theorem deadline_run (new : start.IsNew) (commands : List Command) (deadline : Nat) :
    (start.run commands).emission.deadline = some deadline ↔
      ∃ time, Awaits start commands time ∧
        min (time + start.options.emitDelay) (timeLimit - 1) = deadline := by
  have delay : ∀ commands, (start.run commands).emission.delay = start.options.emitDelay := by
    intro commands
    rw [delay_run, new.emission]
    rfl
  induction commands using List.reverseRecOn with
  | nil =>
    have none : (start.run []).emission.deadline = none := by
      rw [run, List.foldl_nil, new.emission]
      rfl
    rw [none]
    refine iff_of_false (Option.some_ne_none deadline).symm ?_
    rintro ⟨time, awaits, -⟩
    exact start.not_since_nil awaits
  | append_singleton commands command ih =>
    rw [run_append, run_singleton]
    simp only [awaits_append_singleton]
    -- An update starts to wait anew, an event ends the wait, and anything else leaves it as it is.
    by_cases updates : (start.run commands).Updates command
    · rw [emission_of_updates updates, Debouncer.schedule, delay]
      simp [updates]
    by_cases publishes : (start.run commands).Publishes command
    · rw [execute_of_publishes publishes, emission_emit]
      simp [updates, heard_eq_nil_iff, publishes, Debouncer.cancel]
    · rw [(calm_execute updates publishes).emission]
      simp [updates, heard_eq_nil_iff, publishes, ih]

theorem isPending_run_iff (new : start.IsNew) (commands : List Command) :
    (start.run commands).emission.isPending ↔ Unreported start commands := by
  rw [unreported_iff_exists_awaits, Debouncer.isPending, Option.isSome_iff_exists]
  simp only [deadline_run new commands]
  constructor
  · rintro ⟨_, time, awaits, -⟩
    exact ⟨time, awaits⟩
  · rintro ⟨time, awaits⟩
    exact ⟨_, time, awaits, rfl⟩

theorem isDue_run_iff (new : start.IsNew) (commands : List Command) (now : Nat) :
    (start.run commands).emission.isDue now ↔ ∃ time, Awaits start commands time ∧
      min (time + start.options.emitDelay) (timeLimit - 1) ≤ now := by
  simp only [Debouncer.isDue, Option.any_eq_true, deadline_run new commands, decide_eq_true_eq]
  constructor
  · rintro ⟨_, ⟨time, awaits, rfl⟩, passed⟩
    exact ⟨time, awaits, passed⟩
  · rintro ⟨time, awaits, passed⟩
    exact ⟨_, ⟨time, awaits, rfl⟩, passed⟩

/-- An event is waited for from the first update on and told when enough time has passed since the
last one. Nothing else tells it, or makes the wait longer or shorter. -/
theorem events_wait_for_last_update (new : start.IsNew) (commands : List Command) :
    let e := start.run commands
    (e.emission.isPending ↔ Unreported start commands) ∧
    (e.heard .poll ≠ [] ↔ ∃ time, Awaits start commands time ∧
      min (time + start.options.emitDelay) (2 ^ 64 - 1) ≤ e.clock.now) ∧
    (e.heard .poll).length ≤ 1 ∧
    (e.heard .emit).length = 1 ∧ (e.execute .emit).1.emission.isPending = false ∧
    (∀ command, e.heard command ≠ [] → command = .emit ∨ command = .poll) ∧
    (∀ command, ¬e.Updates command → e.heard command = [] →
      (e.execute command).1.emission = e.emission) ∧
    ∀ command, command ≠ .collect →
      (e.execute command).1.outbox =
        e.outbox ++ (e.heard command).flatMap fun event => e.subscribers.map (⟨·, event⟩) := by
  intro e
  have poll : e.heard .poll ≠ [] ↔ e.emission.isDue e.clock.now := by
    rw [Ne, heard_eq_nil_iff, not_not]
    rfl
  have emit : e.heard .emit = [e.emit.2] := heard_of_publishes trivial
  refine ⟨isPending_run_iff new commands, poll.trans (isDue_run_iff new commands _), ?_, ?_, ?_,
    ?_, fun command => emission_of_calm, fun command => e.outbox_execute⟩
  · by_cases due : e.Publishes .poll
    · simp [heard_of_publishes due]
    · simp [heard_of_not_publishes due]
  · rw [emit]
    rfl
  · rw [execute, andAnswer, emission_emit]
    rfl
  · intro command told
    rw [Ne, heard_eq_nil_iff, not_not] at told
    cases command with
    | emit => exact .inl rfl
    | poll => exact .inr rfl
    | _ => exact told.elim

theorem events_wait_for_last_update_typed :
    let start := new .default (.manual 0)
    let commands := [.insertText ['x'], .advanceClock 149, .selectAll, .advanceClock 1]
    let e := start.run commands
    start.IsNew ∧ e.emission.isPending ∧ e.heard .poll = [e.emit.2] ∧
      (e.execute .selectAll).1.emission = e.emission ∧
      (e.execute .emit).1.emission.isPending = false := by
  intro start commands e
  have made : start.IsNew := ⟨.default, .manual 0, .inl rfl⟩
  obtain ⟨pending, due, -, -, cleared, -, kept, -⟩ := events_wait_for_last_update made commands
  have typed : start.Updates (.insertText ['x']) := List.cons_ne_nil _ _
  have awaits : Awaits start commands 0 :=
    ⟨[], .insertText ['x'], _, rfl, ⟨typed, rfl⟩, ⟨id, heard_of_not_publishes id⟩,
      ⟨id, heard_of_not_publishes id⟩, ⟨id, heard_of_not_publishes id⟩, trivial⟩
  have told : e.heard .poll ≠ [] := due.mpr ⟨0, awaits, by decide⟩
  rw [Ne, heard_eq_nil_iff, not_not] at told
  refine ⟨made, pending.mpr ?_, heard_of_publishes told, kept _ id (heard_of_not_publishes id),
    cleared⟩
  exact (unreported_iff_exists_awaits start commands).mpr ⟨0, awaits⟩

end FeatureText.Editor
