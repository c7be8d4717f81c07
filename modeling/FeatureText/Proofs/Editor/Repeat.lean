import FeatureText.Proofs.Editor.Debounce

/-! Events that are repeated. Publishing leaves a formatted document behind, of which nothing else
can be told, and every update that might change that asks for an event of its own. -/
namespace FeatureText.Editor

/-- Publishing would leave the document as it is: it is formatted already, or it cannot be read. -/
def IsFormatted (e : Editor) : Prop :=
  ∀ items, e.features = .ok items → formatFeatures e.options.indentWidth items = e.buffer.text

def verdict (e : Editor) (items : List Json) : Event :=
  match Schema.problems items with
  | first :: more => .invalid first more e.buffer.text
  | [] => .change (Feature.collection (e.published items))

def finding (e : Editor) : Event :=
  match parseFeatures e.buffer.text with
  | .error reason => .misread reason e.buffer.text
  | .ok items => e.verdict items

/-- The last event is what there is to tell. -/
structure IsReported (e : Editor) : Prop where
  formatted : e.IsFormatted
  lastEvent : e.lastEvent = some e.finding

/-- In a run of commands the last event was told of a state. -/
def ToldOf (start : Editor) (commands : List Command) (d : Editor) : Prop :=
  Since (fun e command => e.heard command = []) (fun e command => e = d ∧ e.heard command ≠ [])
    start commands

variable {start e e' : Editor} {command : Command} {items : List Json}

theorem finding_of_features (read : e.features = .ok items) : e.finding = e.verdict items := by
  rw [finding, features_eq_ok_iff.mp read]

theorem review_of_features (read : e.features = .ok items) :
    e.review = (e.formatted items, (e.formatted items).verdict items) := by
  unfold review verdict
  simp only [features_eq_ok_iff.mp read]
  cases Schema.problems items <;> rfl

theorem review_of_isFormatted (h : e.IsFormatted) : e.review = (e, e.finding) := by
  cases parsed : parseFeatures e.buffer.text with
  | error reason => simp only [review, finding, parsed]
  | ok items =>
    have read := features_eq_ok_iff.mpr parsed
    have same : e.formatted items = e := if_pos (h items read)
    rw [review_of_features read, finding_of_features read, same]

theorem IsFormatted.of_same (h : e.IsFormatted) (options : e'.options = e.options)
    (buffer : e'.buffer = e.buffer) (hidden : e'.hidden = e.hidden) :
    e'.IsFormatted ∧ e'.finding = e.finding := by
  refine ⟨fun items read => ?_, ?_⟩
  · rw [features_eq_ok_iff, buffer] at read
    rw [options, buffer]
    exact h items (features_eq_ok_iff.mpr read)
  · unfold finding verdict published
    rw [buffer, hidden]

theorem IsReported.of_calm (h : e.IsReported) (rests : Calm e command e') : e'.IsReported := by
  obtain ⟨formatted, same⟩ := h.formatted.of_same rests.options rests.buffer rests.hidden
  exact ⟨formatted, by rw [rests.lastEvent, same, h.lastEvent]⟩

theorem isFormatted_formatted (read : e.features = .ok items) (written : IsWritable items) :
    (e.formatted items).features = .ok items ∧ (e.formatted items).IsFormatted := by
  unfold Editor.formatted
  dsimp only
  split
  · next same =>
    refine ⟨read, fun again there => ?_⟩
    cases read.symm.trans there
    exact same
  · have reread := features_reformat e e.options.indentWidth written
    refine ⟨reread, fun again there => ?_⟩
    cases reread.symm.trans there
    rw [(silent_reformat e _).options, buffer_reformat]
    exact (joinLines_splitLines_formatFeatures e.options.indentWidth items).symm

theorem exists_review (exact : ∀ feature ∈ e.getAll, feature.HasExactNumbers) :
    ∃ d : Editor, d.IsFormatted ∧ e.review = (d, d.finding) := by
  cases read : e.features with
  | error reason =>
    have formatted : e.IsFormatted := by
      intro items there
      rw [read] at there
      cases there
    exact ⟨e, formatted, review_of_isFormatted formatted⟩
  | ok items =>
    rw [getAll_of_features read] at exact
    obtain ⟨reread, formatted⟩ := isFormatted_formatted read (isWritable_of_features read exact)
    exact ⟨_, formatted, by rw [review_of_features read, finding_of_features reread]⟩

theorem isReported_emit (exact : ∀ feature ∈ e.getAll, feature.HasExactNumbers) :
    e.emit.1.IsReported ∧ e.emit.2 = e.emit.1.finding := by
  let quiet : Editor := { e with emission := e.emission.cancel }
  have exact : ∀ feature ∈ quiet.getAll, feature.HasExactNumbers := exact
  obtain ⟨d, formatted, reviewed⟩ := exists_review exact
  have told : e.emit = (d.deliver d.finding, d.finding) := by
    change quiet.publish = _
    rw [publish, reviewed]
  obtain ⟨after, finding⟩ := formatted.of_same (rfl : (d.deliver d.finding).options = _) rfl rfl
  rw [told]
  exact ⟨⟨after, congrArg some finding.symm⟩, finding.symm⟩

theorem isPending_of_updates (h : e.Updates command) :
    (e.execute command).1.emission.isPending := by
  rw [emission_of_updates h]
  rfl

theorem IsNew.lastEvent (h : start.IsNew) : start.lastEvent = none := by
  obtain ⟨options, clock, rfl | ⟨text, rfl⟩⟩ := h
  · exact (silent_recompute _).lastEvent
  · exact (silent_recompute _).lastEvent.trans (silent_recompute _).lastEvent

theorem toldOf_append_singleton (start : Editor) (commands : List Command) (command : Command)
    (d : Editor) :
    ToldOf start (commands ++ [command]) d ↔
      (start.run commands = d ∧ (start.run commands).heard command ≠ []) ∨
        (start.run commands).heard command = [] ∧ ToldOf start commands d :=
  since_append_singleton start commands command

/-- At any time of a run an event is waited for, or none was told yet, or the last one is what there
is to tell. -/
theorem isReported_run (new : start.IsNew) (commands : List Command)
    (exact : ∀ d, ToldOf start commands d → ∀ feature ∈ d.getAll, feature.HasExactNumbers) :
    (start.run commands).emission.isPending ∨ (start.run commands).lastEvent = none ∨
      (start.run commands).IsReported := by
  induction commands using List.reverseRecOn with
  | nil => exact .inr (.inl new.lastEvent)
  | append_singleton commands command ih =>
    simp only [toldOf_append_singleton] at exact
    rw [run_append, run_singleton]
    by_cases updates : (start.run commands).Updates command
    · exact .inl (isPending_of_updates updates)
    by_cases publishes : (start.run commands).Publishes command
    · have heard : (start.run commands).heard command ≠ [] := by
        rw [Ne, heard_eq_nil_iff, not_not]
        exact publishes
      rw [execute_of_publishes publishes]
      exact .inr (.inr (isReported_emit (exact _ (.inl ⟨rfl, heard⟩))).1)
    · have unheard := heard_of_not_publishes publishes
      have rests := calm_execute updates publishes
      rw [rests.emission, rests.lastEvent]
      exact (ih fun d told => exact d (.inr ⟨unheard, told⟩)).imp_right
        (Or.imp_right fun reported => reported.of_calm rests)

theorem IsReported.execute_emit (h : e.IsReported) (idle : e.emission.isPending = false) :
    e.execute .emit =
      ({ e with outbox := e.outbox ++ e.subscribers.map (⟨·, e.finding⟩) }, .event e.finding) := by
  have none : e.emission.deadline = none := by simpa [Debouncer.isPending] using idle
  have same : e.emission.cancel = e.emission := by rw [Debouncer.cancel, ← none]
  rw [execute, andAnswer, emit, same, publish, review_of_isFormatted h.formatted]
  dsimp only
  rw [deliver, ← h.lastEvent]

/-- If no event is waited for, publishing once more answers with the last event and changes nothing;
so it does at once after any event. -/
theorem emit_repeats_last_event (new : start.IsNew) (commands : List Command)
    (exact : ∀ d, ToldOf start commands d → ∀ feature ∈ d.getAll, feature.HasExactNumbers) :
    let e := start.run commands
    (∀ event, e.emission.isPending = false → e.lastEvent = some event →
      e.execute .emit =
        ({ e with outbox := e.outbox ++ e.subscribers.map (⟨·, event⟩) }, .event event)) ∧
    ((∀ feature ∈ e.getAll, feature.HasExactNumbers) →
      ∀ e' event, e.execute .emit = (e', .event event) →
        e'.execute .emit =
          ({ e' with outbox := e'.outbox ++ e'.subscribers.map (⟨·, event⟩) }, .event event)) := by
  intro e
  refine ⟨fun event idle last => ?_, fun exact e' event sent => ?_⟩
  · rcases isReported_run new commands exact with pending | none | reported
    · exact absurd pending (by simp [e, idle])
    · cases none.symm.trans last
    · obtain rfl := Option.some.inj (reported.lastEvent.symm.trans last)
      exact reported.execute_emit idle
  · obtain ⟨reported, same⟩ := isReported_emit exact
    obtain ⟨rfl, answer⟩ := Prod.mk.inj sent
    obtain rfl := Answer.event.inj answer
    have idle : e.emit.1.emission.isPending = false := by
      rw [emission_emit]
      rfl
    rw [reported.execute_emit idle, same]

theorem emit_repeats_last_event_withFeature :
    let commands := [.emit, .collapseAll]
    let first := withFeature.emit.1
    let e := withFeature.run commands
    withFeature.IsNew ∧
      (∀ d, ToldOf withFeature commands d → ∀ feature ∈ d.getAll, feature.HasExactNumbers) ∧
      e.emission.isPending = false ∧
      ∃ document, e.lastEvent = some (.change document) ∧
        e.execute .emit =
          ({ e with outbox := e.outbox ++ e.subscribers.map (⟨·, .change document⟩) },
            .event (.change document)) ∧
        first.execute .emit =
          ({ first with outbox := first.outbox ++ first.subscribers.map (⟨·, .change document⟩) },
            .event (.change document)) := by
  intro commands first e
  have made : withFeature.IsNew := ⟨.default, .still, .inr ⟨_, rfl⟩⟩
  have exact : ∀ feature ∈ withFeature.getAll, feature.HasExactNumbers := by
    rw [getAll_of_features features_withFeature]
    simpa using hasExactNumbers_numbered (by decide)
  have untold : ∀ d, ¬ToldOf withFeature [] d := fun d => not_since_nil withFeature
  have exactly : ∀ d, ToldOf withFeature commands d →
      ∀ feature ∈ d.getAll, feature.HasExactNumbers := by
    intro d told
    have folds : ¬(withFeature.run [.emit]).Publishes .collapseAll := id
    rcases (toldOf_append_singleton withFeature [.emit] .collapseAll d).mp told with
      ⟨-, heard⟩ | ⟨-, told⟩
    · exact absurd (heard_of_not_publishes folds) heard
    rcases (toldOf_append_singleton withFeature [] .emit d).mp told with ⟨rfl, -⟩ | ⟨-, none⟩
    · rwa [run_nil]
    · exact absurd none (untold d)
  obtain ⟨e', document, sent⟩ := exists_execute_emit_of_valid features_withFeature rfl
  have again := (emit_repeats_last_event made [] fun d none => absurd none (untold d)).2
  rw [run_nil] at again
  have again := again exact _ _ sent
  obtain ⟨rfl, answer⟩ := Prod.mk.inj sent
  have rests : Calm first .collapseAll e := calm_execute id id
  have last : e.lastEvent = some (.change document) :=
    rests.lastEvent.trans (congrArg some (Answer.event.inj answer))
  have idle : e.emission.isPending = false := by
    rw [rests.emission, emission_emit]
    rfl
  exact ⟨made, exactly, idle, document, last,
    (emit_repeats_last_event made commands exactly).1 _ idle last, again⟩

end FeatureText.Editor
