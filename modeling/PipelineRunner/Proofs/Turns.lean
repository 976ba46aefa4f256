import PipelineRunner.Engine.Execution
import PipelineRunner.World

/-! What a turn can do, said once for each part of a run: which events it notes and what becomes of
the part. Every later proof about turns is a case analysis of these relations. Work that is
performed tells of log lines and of commands in containers only; these asides say nothing on how far
a stage is, so that the events which matter for a stage are exactly those that the engine itself
notes. -/

namespace PipelineRunner

/-- Whether an event may be told by a piece of work. -/
def Event.isAside : Event → Bool
  | .logged .. => true
  | .remarked _ => true
  | _ => false

/-- The container that an event tells to stop. -/
def Event.stopId? : Event → Option String
  | .stop id => some id
  | _ => none

theorem Event.stopId?_eq_some {event : Event} {id : String} :
    event.stopId? = some id ↔ event = .stop id := by
  cases event <;> simp [stopId?]

/-- The events of some records that are no asides. -/
def marks (records : List Record) : List Event :=
  (records.map (·.event)).filter fun e => !e.isAside

@[simp] theorem marks_nil : marks [] = [] := rfl

@[simp] theorem marks_append (xs ys : List Record) : marks (xs ++ ys) = marks xs ++ marks ys := by
  simp [marks]

namespace World

variable {w w' w'' : World} {place : Place} {events more : List Event}

/-- `w'` comes from `w` by noting these events at a place, with asides anywhere among them. -/
def Notes (w : World) (place : Place) (events : List Event) (w' : World) : Prop :=
  ∃ news : List Record, w'.history = news.reverse ++ w.history ∧
    (∀ r ∈ news, r.place = place) ∧ marks news = events

theorem Notes.nothing (h : w'.history = w.history) : w.Notes place [] w' :=
  ⟨[], by simpa using h, by simp, rfl⟩

theorem Notes.trans (h : w.Notes place events w') (h' : w'.Notes place more w'') :
    w.Notes place (events ++ more) w'' := by
  obtain ⟨xs, hx, px, mx⟩ := h
  obtain ⟨ys, hy, py, my⟩ := h'
  refine ⟨xs ++ ys, by simp [hy, hx], ?_, by simp [mx, my]⟩
  intro r hr
  rcases List.mem_append.mp hr with hr | hr
  · exact px r hr
  · exact py r hr

theorem Notes.still (h : w.Notes place events w') (same : w''.history = w'.history) :
    w.Notes place events w'' := by
  obtain ⟨xs, hx, px, mx⟩ := h
  exact ⟨xs, same.trans hx, px, mx⟩

/-- The news of a world are settled by its history. -/
theorem Notes.of_news {news : List Record} (h : w.Notes place events w')
    (hn : w'.history = news.reverse ++ w.history) :
    (∀ r ∈ news, r.place = place) ∧ marks news = events := by
  obtain ⟨xs, hx, px, mx⟩ := h
  have he : xs = news := by
    rw [hx] at hn
    exact List.reverse_inj.mp (List.append_cancel_right hn)
  subst he
  exact ⟨px, mx⟩

/-- What is no aside among the news is one of the events. -/
theorem Notes.mem {news : List Record} {r : Record} (h : w.Notes place events w')
    (noted : w'.history = news.reverse ++ w.history) (mem : r ∈ news)
    (notable : r.event.isAside = false) : r.event ∈ events := by
  rw [← (h.of_news noted).2]
  simp only [marks, List.mem_filter, List.mem_map]
  exact ⟨⟨r, mem, rfl⟩, by simp [notable]⟩

/-- Two worlds tell which events lie between them. -/
theorem Notes.unique (h : w.Notes place events w') (h' : w.Notes place more w') :
    events = more := by
  obtain ⟨news, noted, -, marked⟩ := h'
  exact (h.of_news noted).2.symm.trans marked

theorem notes_note {event : Event} (h : event.isAside = false) :
    w.Notes place [event] (w.note place event) :=
  ⟨[⟨w.clock, place, event⟩], rfl, by simp, by simp [marks, h]⟩

theorem notes_aside {event : Event} (h : event.isAside = true) :
    w.Notes place [] (w.note place event) :=
  ⟨[⟨w.clock, place, event⟩], rfl, by simp, by simp [marks, h]⟩

theorem Notes.log (h : w.Notes place events w') (workflow : String) (level : LogLevel)
    (message : String) : w.Notes place events (w'.log place workflow level message) := by
  have logged : w'.Notes place [] (w'.log place workflow level message) :=
    ⟨[⟨w'.clock, place, .logged workflow level message⟩], rfl, by simp, rfl⟩
  simpa using h.trans logged

theorem notes_perform {α : Type} (work : Work α) (w : World) :
    w.Notes place [] (perform place work w).1 := by
  induction work generalizing w with
  | done a => exact .nothing rfl
  | sleep ms rest ih =>
    cases ms with
    | zero => exact ih () w
    | succ ms => exact .nothing rfl
  | log workflow level message rest ih =>
    exact ((Notes.nothing rfl).log workflow level message).trans (ih _)
  | remark what rest ih =>
    exact (notes_aside rfl).trans (ih (w.note place (.remarked what)))
  | count counter rest ih =>
    have hc : w.Notes place [] (w.countUp counter).1 := .nothing rfl
    exact hc.trans (ih _ _)
  | readFiles rest ih => exact ih _ w
  | writeFiles files rest ih =>
    have hf : w.Notes place [] { w with files := files } := .nothing rfl
    exact hf.trans (ih _)
  | crash reason => exact .nothing rfl

theorem notes_begun {event : Event} (h : event.isAside = false) {α : Type} (work : Work α) :
    w.Notes place [event] (perform place work (w.note place event)).1 :=
  (notes_note h).trans (notes_perform work _)

end World

/-- Where nothing comes to an end, what neither moves nor breaks down has to wait. -/
theorem Turn.eq_blocked {σ : Type} {turn : Turn σ Empty} (unmoved : ∀ w s, turn ≠ .moved w s)
    (uncrashed : ∀ w reason held, turn ≠ .crashed w reason held) : turn = .blocked := by
  cases turn with
  | blocked => rfl
  | moved w s => exact absurd rfl (unmoved w s)
  | ended w value => cases value
  | crashed w reason held => exact absurd rfl (uncrashed w reason held)

namespace Trial

/-- Whether a call is in flight. -/
def inFlight (t : Trial) : Bool :=
  match t.phase with
  | .calling .. => true
  | _ => false

/-- An attempt of a step has its call made, now or before; the events are those of now. -/
inductive Asks (c : Context) (t : Trial) : Nat → List Event → Prop where
  | now {made : Nat} {builtin : Bool} (ready : t.phase = .ready made)
      (free : c.cancelled = false) :
      Asks c t (made + 1) [.called t.binding.plugin t.binding.method t.params builtin]
  | before {attempt : Nat} {deadline : Timer} {call : Waiting (Except Cause (Option String))}
      (calling : t.phase = .calling attempt deadline call) : Asks c t attempt []

/-- The turns after which a step is still under way. -/
inductive Goes (c : Context) (t : Trial) : List Event → Trial → Prop where
  | waits {attempt : Nat} {events : List Event} (asks : Asks c t attempt events)
      (deadline : Timer) (call : Waiting (Except Cause (Option String))) :
      Goes c t events { t with phase := .calling attempt deadline call }
  | pauses {attempt : Nat} {events : List Event} (asks : Asks c t attempt events)
      (more : attempt < c.engine.policy.maxAttempts) (cause : Cause) (timer : Timer) :
      Goes c t (events ++ [.answered (.error cause)]) { t with phase := .pausing attempt timer }
  | expires {attempt : Nat} {deadline : Timer} {call : Waiting (Except Cause (Option String))}
      (calling : t.phase = .calling attempt deadline call)
      (more : attempt < c.engine.policy.maxAttempts) (timer : Timer) :
      Goes c t [.abandoned] { t with phase := .pausing attempt timer }
  | resumes {made : Nat} {timer : Timer} (pausing : t.phase = .pausing made timer)
      (free : c.cancelled = false) : Goes c t [] { t with phase := .ready made }

/-- The turns that end a step. -/
inductive Ends (c : Context) (t : Trial) : List Event → StepResult → Prop where
  | cancelled (idle : t.inFlight = false) (cancelled : c.cancelled = true) :
      Ends c t [] (.error .cancelled)
  | interrupted (calling : t.inFlight = true) (interrupt : c.interrupt = true)
      (cancelled : c.cancelled = true) : Ends c t [.abandoned] (.error .cancelled)
  | refused {made : Nat} (ready : t.phase = .ready made) (free : c.cancelled = false)
      (message : String) : Ends c t [] (.error (.rejected t.command message))
  | succeeds {attempt : Nat} {events : List Event} (asks : Asks c t attempt events)
      (output : Option String) : Ends c t (events ++ [.answered (.ok output)]) (.ok output)
  | fails {attempt : Nat} {events : List Event} (asks : Asks c t attempt events)
      (last : c.engine.policy.maxAttempts ≤ attempt) (cause : Cause) :
      Ends c t (events ++ [.answered (.error cause)])
        (.error (.failed t.command attempt cause.message))
  | timedOut {attempt : Nat} {deadline : Timer} {call : Waiting (Except Cause (Option String))}
      (calling : t.phase = .calling attempt deadline call)
      (last : c.engine.policy.maxAttempts ≤ attempt) :
      Ends c t [.abandoned]
        (.error (.timedOut t.command attempt c.engine.policy.attemptTimeout))

variable {c : Context} {t t' : Trial} {w w' : World} {attempt : Nat} {e : StepError}
  {result : StepResult}

theorem retry_moved (h : t.retry c attempt e w = .moved w' t') :
    e.isRetryable = true ∧ attempt < c.engine.policy.maxAttempts ∧ w'.history = w.history ∧
      ∃ timer, t' = { t with phase := .pausing attempt timer } := by
  unfold retry at h
  split at h
  · cases h
  · rename_i again
    cases h
    simp only [Bool.or_eq_true, Bool.not_eq_true', decide_eq_true_eq, not_or, Nat.not_le,
      Bool.not_eq_false] at again
    exact ⟨again.1, again.2, rfl, _, rfl⟩

theorem retry_ended (h : t.retry c attempt e w = .ended w' result) :
    (e.isRetryable = true → c.engine.policy.maxAttempts ≤ attempt) ∧ w' = w ∧
      result = .error e := by
  unfold retry at h
  split at h
  · rename_i spent
    cases h
    refine ⟨?_, rfl, rfl⟩
    intro he
    simpa [he] using spent
  · cases h

section Follow

variable {w₀ : World} {events : List Event} {deadline : Option Timer}
  {progress : World × Progress (Except Cause (Option String))}

/-- What has become of a call that is made or goes on. -/
theorem follow_moved (asks : Asks c t attempt events)
    (noted : w₀.Notes c.place events progress.1)
    (h : t.follow c attempt deadline progress = .moved w' t') :
    ∃ events, w₀.Notes c.place events w' ∧ Goes c t events t' := by
  obtain ⟨w, progress⟩ := progress
  cases progress with
  | crashed reason => cases h
  | waits call =>
    cases deadline with
    | none =>
      cases h
      exact ⟨_, noted.still rfl, .waits asks _ _⟩
    | some timer =>
      cases h
      exact ⟨_, noted, .waits asks _ _⟩
  | finished answer =>
    cases answer with
    | ok output => cases h
    | error cause =>
      obtain ⟨-, more, same, timer, rfl⟩ := retry_moved h
      exact ⟨_, (noted.trans (World.notes_note rfl)).still same, .pauses asks more cause timer⟩

theorem follow_ended (asks : Asks c t attempt events)
    (noted : w₀.Notes c.place events progress.1)
    (h : t.follow c attempt deadline progress = .ended w' result) :
    ∃ events, w₀.Notes c.place events w' ∧ Ends c t events result := by
  obtain ⟨w, progress⟩ := progress
  cases progress with
  | crashed reason => cases h
  | waits call => cases deadline <;> cases h
  | finished answer =>
    cases answer with
    | ok output =>
      cases h
      exact ⟨_, noted.trans (World.notes_note rfl), .succeeds asks output⟩
    | error cause =>
      obtain ⟨last, rfl, rfl⟩ := retry_ended h
      exact ⟨_, noted.trans (World.notes_note rfl), .fails asks (last rfl) cause⟩

end Follow

theorem begin_moved {made : Nat} (ready : t.phase = .ready made) (free : c.cancelled = false)
    (h : t.begin c (made + 1) w = .moved w' t') :
    ∃ events, w.Notes c.place events w' ∧ Goes c t events t' := by
  unfold begin at h
  dsimp only at h
  split at h
  · exact absurd (retry_moved h).1 (by simp [StepError.isRetryable])
  · exact follow_moved (.now ready free) (World.notes_begun rfl _) h

theorem begin_ended {made : Nat} (ready : t.phase = .ready made) (free : c.cancelled = false)
    (h : t.begin c (made + 1) w = .ended w' result) :
    ∃ events, w.Notes c.place events w' ∧ Ends c t events result := by
  unfold begin at h
  dsimp only at h
  split at h
  · obtain ⟨-, rfl, rfl⟩ := retry_ended h
    exact ⟨_, .nothing rfl, .refused ready free _⟩
  · exact follow_ended (.now ready free) (World.notes_begun rfl _) h

/-- A turn after which the step is still under way. -/
theorem move_moved (h : t.move c w = .moved w' t') :
    ∃ events, w.Notes c.place events w' ∧ Goes c t events t' := by
  unfold move at h
  split at h
  next made ready =>
    split at h
    · cases h
    · exact begin_moved ready (by simpa using ‹¬c.cancelled = true›) h
  next attempt deadline call calling =>
    split at h
    · exact follow_moved (.before calling) (World.notes_perform _ _) h
    split at h
    · cases h
    split at h
    · obtain ⟨-, more, same, timer, rfl⟩ := retry_moved h
      exact ⟨_, (World.notes_note rfl).still same, .expires calling more timer⟩
    · cases h
  next made timer pausing =>
    split at h
    · cases h
    split at h
    · cases h
      exact ⟨_, .nothing rfl, .resumes pausing (by simpa using ‹¬c.cancelled = true›)⟩
    · cases h

theorem move_ended (h : t.move c w = .ended w' result) :
    ∃ events, w.Notes c.place events w' ∧ Ends c t events result := by
  unfold move at h
  split at h
  next made ready =>
    split at h
    · cases h
      exact ⟨_, .nothing rfl, .cancelled (by simp [inFlight, ready]) ‹_›⟩
    · exact begin_ended ready (by simpa using ‹¬c.cancelled = true›) h
  next attempt deadline call calling =>
    split at h
    · exact follow_ended (.before calling) (World.notes_perform _ _) h
    split at h
    · rename_i both
      cases h
      rw [Bool.and_eq_true] at both
      exact ⟨_, World.notes_note rfl, .interrupted (by simp [inFlight, calling]) both.1 both.2⟩
    split at h
    · obtain ⟨last, rfl, rfl⟩ := retry_ended h
      exact ⟨_, World.notes_note rfl, .timedOut calling (last rfl)⟩
    · cases h
  next made timer pausing =>
    split at h
    · cases h
      exact ⟨_, .nothing rfl, .cancelled (by simp [inFlight, pausing]) ‹_›⟩
    split at h <;> cases h

end Trial

namespace OwnSteps

/-- An image is being fetched, from now on or since before. -/
inductive Fetches (c : Context) (agent : Agent) : OwnSteps → String → List Event → Prop where
  | now {image : String} (docker : agent.image? = some image) (free : c.cancelled = false) :
      Fetches c agent entering image [.pull (Image.normalize image)]
  | before {image : String} {wait : Waiting (Except Cause Unit)} :
      Fetches c agent (pulling image wait) image []

/-- A container is being started, from now on or since before. -/
inductive Starts : OwnSteps → String → List Event → Prop where
  | now {image : String} : Starts (pulled image) image [.start (Image.normalize image)]
  | before {image : String} {wait : Waiting (Except Cause String)} :
      Starts (starting image wait) image []

/-- A container is being stopped, from now on or since before. -/
inductive Stops : OwnSteps → String → StepsResult → List Event → Prop where
  | now {id : String} {result : StepsResult} : Stops (leaving (some id) result) id result [.stop id]
  | before {id : String} {result : StepsResult} {wait : Waiting (Except Cause Unit)} :
      Stops (stopping id wait result) id result []

/-- The turns after which the steps of a stage are still under way. -/
inductive Goes (c : Context) (stage : Stage) (agent : Agent) :
    OwnSteps → List Event → OwnSteps → Prop where
  | host (bare : agent.image? = none) :
      Goes c stage agent entering [] (between none stage.steps [])
  | pulling {own : OwnSteps} {image : String} {events : List Event}
      (fetches : Fetches c agent own image events) (wait : Waiting (Except Cause Unit)) :
      Goes c stage agent own events (pulling image wait)
  | pulled {own : OwnSteps} {image : String} {events : List Event}
      (fetches : Fetches c agent own image events) :
      Goes c stage agent own (events ++ [.pulled (Image.normalize image)]) (pulled image)
  | starting {own : OwnSteps} {image : String} {events : List Event}
      (starts : Starts own image events) (wait : Waiting (Except Cause String)) :
      Goes c stage agent own events (starting image wait)
  | started {own : OwnSteps} {image : String} {events : List Event}
      (starts : Starts own image events) (id : String) :
      Goes c stage agent own (events ++ [.started (Image.normalize image) id])
        (between (some id) stage.steps [])
  | through {container : Option String} {outputs : List String} :
      Goes c stage agent (between container [] outputs) [] (leaving container ⟨outputs, none⟩)
  | cancelled {container : Option String} {step : Step} {todo : List Step}
      {outputs : List String} (cancelled : c.cancelled = true) :
      Goes c stage agent (between container (step :: todo) outputs) []
        (leaving container ⟨outputs, some .cancelled⟩)
  | unresolved {container : Option String} {step : Step} {todo : List Step}
      {outputs : List String} (free : c.cancelled = false) :
      Goes c stage agent (between container (step :: todo) outputs) []
        (leaving container
          ⟨outputs ++ [(StepError.unresolved step.command).message],
            some (.unresolved step.command)⟩)
  | resolved {container : Option String} {step : Step} {todo : List Step}
      {outputs : List String} (free : c.cancelled = false) (binding : Binding) :
      Goes c stage agent (between container (step :: todo) outputs) []
        (trying container
          { command := step.command
            params := step.paramsWithin c.place.workflow container
            binding } todo outputs)
  | tries {container : Option String} {trial trial' : Trial} {todo : List Step}
      {outputs : List String} {events : List Event} (goes : trial.Goes c events trial') :
      Goes c stage agent (trying container trial todo outputs) events
        (trying container trial' todo outputs)
  | succeeds {container : Option String} {trial : Trial} {todo : List Step}
      {outputs : List String} {events : List Event} {output : Option String}
      (ends : trial.Ends c events (.ok output)) :
      Goes c stage agent (trying container trial todo outputs) events
        (between container todo (outputs ++ [output.getD ""]))
  | fails {container : Option String} {trial : Trial} {todo : List Step}
      {outputs : List String} {events : List Event} {e : StepError}
      (ends : trial.Ends c events (.error e)) :
      Goes c stage agent (trying container trial todo outputs) events
        (leaving container ⟨outputs ++ [e.message], some e⟩)
  | stopping {own : OwnSteps} {id : String} {result : StepsResult} {events : List Event}
      (stops : Stops own id result events) (wait : Waiting (Except Cause Unit)) :
      Goes c stage agent own events (stopping id wait result)

/-- The turns that end the steps of a stage. -/
inductive Ends (c : Context) (agent : Agent) : OwnSteps → List Event → StepsResult → Prop where
  | cancelled {image : String} (docker : agent.image? = some image)
      (cancelled : c.cancelled = true) : Ends c agent entering [] ⟨[], some .cancelled⟩
  | unpulled {own : OwnSteps} {image : String} {events : List Event}
      (fetches : Fetches c agent own image events) (cause : Cause) :
      Ends c agent own events (withoutContainer image cause)
  | unstarted {own : OwnSteps} {image : String} {events : List Event}
      (starts : Starts own image events) (cause : Cause) :
      Ends c agent own events (withoutContainer image cause)
  | host {result : StepsResult} : Ends c agent (leaving none result) [] result
  | stopped {own : OwnSteps} {id : String} {result : StepsResult} {events : List Event}
      (stops : Stops own id result events) : Ends c agent own (events ++ [.stopped id]) result

variable {c : Context} {stage : Stage} {agent : Agent} {own own' : OwnSteps} {w w₀ w' : World}
  {image id : String} {events : List Event} {result after : StepsResult}

theorem followPull_moved {progress : World × Progress (Except Cause Unit)}
    (fetches : Fetches c agent own image events) (noted : w₀.Notes c.place events progress.1)
    (h : followPull c image progress = .moved w' own') :
    ∃ events, w₀.Notes c.place events w' ∧ Goes c stage agent own events own' := by
  obtain ⟨w, progress⟩ := progress
  cases progress with
  | crashed reason => cases h
  | waits wait =>
    cases h
    exact ⟨_, noted, .pulling fetches wait⟩
  | finished answer =>
    cases answer with
    | error cause => cases h
    | ok done =>
      cases h
      exact ⟨_, noted.trans (World.notes_note rfl), .pulled fetches⟩

theorem followPull_ended {progress : World × Progress (Except Cause Unit)}
    (fetches : Fetches c agent own image events) (noted : w₀.Notes c.place events progress.1)
    (h : followPull c image progress = .ended w' result) :
    ∃ events, w₀.Notes c.place events w' ∧ Ends c agent own events result := by
  obtain ⟨w, progress⟩ := progress
  cases progress with
  | crashed reason => cases h
  | waits wait => cases h
  | finished answer =>
    cases answer with
    | error cause =>
      cases h
      exact ⟨_, noted, .unpulled fetches cause⟩
    | ok done => cases h

theorem followStart_moved {progress : World × Progress (Except Cause String)}
    (starts : Starts own image events) (noted : w₀.Notes c.place events progress.1)
    (h : followStart c stage image progress = .moved w' own') :
    ∃ events, w₀.Notes c.place events w' ∧ Goes c stage agent own events own' := by
  obtain ⟨w, progress⟩ := progress
  cases progress with
  | crashed reason => cases h
  | waits wait =>
    cases h
    exact ⟨_, noted, .starting starts wait⟩
  | finished answer =>
    cases answer with
    | error cause => cases h
    | ok id =>
      cases h
      exact ⟨_, (noted.trans (World.notes_note rfl)).log _ _ _, .started starts id⟩

theorem followStart_ended {progress : World × Progress (Except Cause String)}
    (starts : Starts own image events) (noted : w₀.Notes c.place events progress.1)
    (h : followStart c stage image progress = .ended w' result) :
    ∃ events, w₀.Notes c.place events w' ∧ Ends c agent own events result := by
  obtain ⟨w, progress⟩ := progress
  cases progress with
  | crashed reason => cases h
  | waits wait => cases h
  | finished answer =>
    cases answer with
    | error cause =>
      cases h
      exact ⟨_, noted, .unstarted starts cause⟩
    | ok id => cases h

theorem followStop_moved {progress : World × Progress (Except Cause Unit)}
    (stops : Stops own id result events) (noted : w₀.Notes c.place events progress.1)
    (h : followStop c id result progress = .moved w' own') :
    ∃ events, w₀.Notes c.place events w' ∧ Goes c stage agent own events own' := by
  obtain ⟨w, progress⟩ := progress
  cases progress with
  | crashed reason => cases h
  | waits wait =>
    cases h
    exact ⟨_, noted, .stopping stops wait⟩
  | finished answer => cases h

theorem followStop_ended {progress : World × Progress (Except Cause Unit)}
    (stops : Stops own id result events) (noted : w₀.Notes c.place events progress.1)
    (h : followStop c id result progress = .ended w' after) :
    ∃ events, w₀.Notes c.place events w' ∧ Ends c agent own events after := by
  obtain ⟨w, progress⟩ := progress
  cases progress with
  | crashed reason => cases h
  | waits wait => cases h
  | finished answer =>
    cases h
    exact ⟨_, noted.trans (World.notes_note rfl), .stopped stops⟩

theorem beginStep_moved {container : Option String} {step : Step} {todo : List Step}
    {outputs : List String} (h : beginStep c container step todo outputs w = .moved w' own') :
    w' = w ∧ Goes c stage agent (between container (step :: todo) outputs) [] own' := by
  unfold beginStep at h
  split at h
  · cases h
    exact ⟨rfl, .cancelled ‹_›⟩
  · have free : c.cancelled = false := by simpa using ‹¬c.cancelled = true›
    split at h
    · cases h
      exact ⟨rfl, .unresolved free⟩
    · cases h
      exact ⟨rfl, .resolved free _⟩

theorem followTrial_moved {container : Option String} {trial : Trial} {todo : List Step}
    {outputs : List String}
    (h : followTrial container todo outputs (trial.move c w) = .moved w' own') :
    ∃ events, w.Notes c.place events w' ∧
      Goes c stage agent (trying container trial todo outputs) events own' := by
  cases ht : trial.move c w with
  | blocked => simp [ht, followTrial] at h
  | crashed w₁ reason held => simp [ht, followTrial] at h
  | moved w₁ trial' =>
    simp only [ht, followTrial] at h
    cases h
    obtain ⟨events, noted, goes⟩ := Trial.move_moved ht
    exact ⟨_, noted, .tries goes⟩
  | ended w₁ answer =>
    obtain ⟨events, noted, ends⟩ := Trial.move_ended ht
    cases answer with
    | ok output =>
      simp only [ht, followTrial] at h
      cases h
      exact ⟨_, noted, .succeeds ends⟩
    | error e =>
      simp only [ht, followTrial] at h
      cases h
      exact ⟨_, noted, .fails ends⟩

/-- A turn after which the steps are still under way. -/
theorem move_moved (h : own.move c stage agent w = .moved w' own') :
    ∃ events, w.Notes c.place events w' ∧ Goes c stage agent own events own' := by
  cases own with
  | entering =>
    simp only [move] at h
    split at h
    · cases h
      exact ⟨_, .nothing rfl, .host ‹_›⟩
    · split at h
      · cases h
      · have free : c.cancelled = false := by simpa using ‹¬c.cancelled = true›
        exact followPull_moved (.now ‹_› free) (World.notes_begun rfl _) h
  | pulling image wait =>
    simp only [move] at h
    split at h
    · exact followPull_moved .before (World.notes_perform _ _) h
    · cases h
  | pulled image => exact followStart_moved .now (World.notes_begun rfl _) h
  | starting image wait =>
    simp only [move] at h
    split at h
    · exact followStart_moved .before (World.notes_perform _ _) h
    · cases h
  | between container todo outputs =>
    cases todo with
    | nil =>
      cases h
      exact ⟨_, .nothing rfl, .through⟩
    | cons step todo =>
      obtain ⟨rfl, goes⟩ := beginStep_moved h
      exact ⟨_, .nothing rfl, goes⟩
  | trying container trial todo outputs => exact followTrial_moved h
  | leaving container result =>
    cases container with
    | none => cases h
    | some id => exact followStop_moved .now (World.notes_begun rfl _) h
  | stopping id wait result =>
    simp only [move] at h
    split at h
    · exact followStop_moved .before (World.notes_perform _ _) h
    · cases h

theorem move_ended (h : own.move c stage agent w = .ended w' result) :
    ∃ events, w.Notes c.place events w' ∧ Ends c agent own events result := by
  cases own with
  | entering =>
    simp only [move] at h
    split at h
    · cases h
    · split at h
      · cases h
        exact ⟨_, .nothing rfl, .cancelled ‹_› ‹_›⟩
      · have free : c.cancelled = false := by simpa using ‹¬c.cancelled = true›
        exact followPull_ended (.now ‹_› free) (World.notes_begun rfl _) h
  | pulling image wait =>
    simp only [move] at h
    split at h
    · exact followPull_ended .before (World.notes_perform _ _) h
    · cases h
  | pulled image => exact followStart_ended .now (World.notes_begun rfl _) h
  | starting image wait =>
    simp only [move] at h
    split at h
    · exact followStart_ended .before (World.notes_perform _ _) h
    · cases h
  | between container todo outputs =>
    cases todo with
    | nil => cases h
    | cons step todo =>
      simp only [move, beginStep] at h
      split at h
      · cases h
      · split at h <;> cases h
  | trying container trial todo outputs =>
    simp only [move] at h
    cases ht : trial.move c w with
    | ended w₁ answer => cases answer <;> simp [ht, followTrial] at h
    | _ => simp [ht, followTrial] at h
  | leaving container result =>
    cases container with
    | none =>
      cases h
      exact ⟨_, .nothing rfl, .host⟩
    | some id => exact followStop_ended .now (World.notes_begun rfl _) h
  | stopping id wait result =>
    simp only [move] at h
    split at h
    · exact followStop_ended .before (World.notes_perform _ _) h
    · cases h

end OwnSteps

namespace StageRun

section

variable {stage : Stage} {agent inherited : Agent} {motive : StageRun → Prop}

@[elab_as_elim]
theorem ownSteps_cases (branches : Option StageResults)
    (nothing : ∀ output, motive (settled output none))
    (steps : motive (working stage agent branches .entering)) :
    motive (ownSteps stage agent branches) := by
  unfold ownSteps
  split
  · exact nothing _
  · exact steps

@[elab_as_elim]
theorem enter_cases
    (alone : stage.parallel = [] → motive (ownSteps stage (stage.effectiveAgent inherited) none))
    (join : motive (joining stage (stage.effectiveAgent inherited)
      (stage.parallel.map fun branch => fresh branch (stage.effectiveAgent inherited)) none)) :
    motive (enter stage inherited) := by
  unfold enter
  dsimp only
  split
  next none => exact alone (List.isEmpty_iff.mp none)
  next => exact join

/-- Without any failure a stage goes on to its own steps behind its branches. -/
@[elab_as_elim]
theorem leaveJoin_cases (outputs : List StageOutput) (failure : Option StepError)
    (fails : ∀ output e, failure = some e → motive (settled output (some e)))
    (goesOn : failure = none → ∀ branches, motive (ownSteps stage agent branches)) :
    motive (leaveJoin stage agent outputs failure) := by
  cases failure with
  | some e => exact fails _ e rfl
  | none => exact goesOn rfl _

end

/-- The turns that change something at a place in a stage. -/
inductive Turned (c : Context) (w : World) : List Nat → StageRun → World → StageRun → Prop where
  | enters {stage : Stage} {inherited : Agent} :
      Turned c w [] (fresh stage inherited) w (enter stage inherited)
  | leaves {stage : Stage} {agent : Agent} {runs : List StageRun} {failure : Option StepError}
      {outputs : List StageOutput} (all : outputs? runs = some outputs) :
      Turned c w [] (joining stage agent runs failure) w (leaveJoin stage agent outputs failure)
  | works {stage : Stage} {agent : Agent} {branches : Option StageResults} {own own' : OwnSteps}
      {events : List Event} {w' : World} (noted : w.Notes c.place events w')
      (goes : own.Goes c stage agent events own') :
      Turned c w [] (working stage agent branches own) w' (working stage agent branches own')
  | settles {stage : Stage} {agent : Agent} {branches : Option StageResults} {own : OwnSteps}
      {events : List Event} {w' : World} {result : StepsResult}
      (noted : w.Notes c.place events w') (ends : own.Ends c agent events result) :
      Turned c w [] (working stage agent branches own) w'
        (settled (.ofParts branches (some result.outputs)) result.failure)
  | receives {stage : Stage} {agent : Agent} {runs : List StageRun} {failure : Option StepError}
      {i : Nat} {path : List Nat} {output : StageOutput} {outcome : Option StepError}
      (there : runs[i]? = some (settled output outcome)) :
      Turned c w (i :: path) (joining stage agent runs failure)
        (w.note c.place (.received i outcome.isSome))
        (joining stage agent (runs.set i (received output)) (failure.or outcome))
  | inside {stage : Stage} {agent : Agent} {runs : List StageRun} {failure : Option StepError}
      {i : Nat} {path : List Nat} {run run' : StageRun} {w' : World}
      (there : runs[i]? = some run) (unsettled : run.isSettled = false)
      (moved : run.move (Context.inside c stage failure i) w path = .moved w' run') :
      Turned c w (i :: path) (joining stage agent runs failure) w'
        (joining stage agent (runs.set i run') failure)

variable {c : Context} {w w' : World} {path : List Nat} {run run' : StageRun}

theorem isSettled_eq_false (unsettled : ∀ output failure, run ≠ settled output failure) :
    run.isSettled = false := by
  cases run with
  | settled output failure => exact absurd rfl (unsettled output failure)
  | _ => rfl

theorem turned_of_moveHere (h : run.moveHere c w = .moved w' run') :
    Turned c w [] run w' run' := by
  cases run with
  | fresh stage inherited =>
    cases h
    exact .enters
  | joining stage agent runs failure =>
    simp only [moveHere] at h
    split at h
    · cases h
      exact .leaves ‹_›
    · cases h
  | working stage agent branches own =>
    simp only [moveHere] at h
    cases ho : own.move c stage agent w with
    | blocked => simp [ho, followSteps] at h
    | crashed w₁ reason held => simp [ho, followSteps] at h
    | moved w₁ own' =>
      simp only [ho, followSteps] at h
      cases h
      obtain ⟨events, noted, goes⟩ := OwnSteps.move_moved ho
      exact .works noted goes
    | ended w₁ result =>
      simp only [ho, followSteps] at h
      cases h
      obtain ⟨events, noted, ends⟩ := OwnSteps.move_ended ho
      exact .settles noted ends
  | settled output failure => cases h
  | received output => cases h

theorem turned_of_move (h : run.move c w path = .moved w' run') : Turned c w path run w' run' := by
  cases path with
  | nil => exact turned_of_moveHere (by simpa [move] using h)
  | cons i path =>
    cases run with
    | joining stage agent runs failure =>
      rw [move] at h
      split at h
      next => cases h
      next output outcome there =>
        cases h
        exact .receives there
      next run unsettled there =>
        cases hr : run.move (Context.inside c stage failure i) w path with
        | moved w₁ run₁ =>
          simp only [hr, followBranch] at h
          cases h
          exact .inside there (isSettled_eq_false unsettled) hr
        | _ => simp [hr, followBranch] at h
    | _ => simp [move] at h

end StageRun
end PipelineRunner
