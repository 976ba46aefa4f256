import PipelineRunner.Engine.Solo
import PipelineRunner.Proofs.ExecutionRuns

/-! What is scheduled is a run. The rota of an execution only tells at which place the next turn is
had; whatever it tells, the turns are those of a run, and so is what an execution by itself comes
to, whatever goes on beside it. -/

namespace PipelineRunner

namespace Execution

variable {engine : Engine} {pipeline : Pipeline} {properties : Properties} {state : StateCell}
  {past : List Moment} {e e' : Execution} {w w' : World} {reason : String} {held : List String}

theorem wake_eq : ∃ rota, e.wake engine w = { e with rota } := by
  unfold wake
  split <;> exact ⟨_, rfl⟩

theorem follow_eq (place : List Nat) (after : Execution) :
    ∃ rota, e.follow engine place w after = { after with rota } := by
  unfold follow
  split
  · obtain ⟨rota, woken⟩ := @wake_eq engine after w
    dsimp only
    rw [woken]
    exact ⟨_, rfl⟩
  · split <;> exact ⟨_, rfl⟩

theorem giveWay_eq (place : List Nat) : ∃ rota, e.giveWay place = { e with rota } := by
  unfold giveWay
  split <;> exact ⟨_, rfl⟩

/-- A step is a turn at the place that has it, or only changes who has the next one. -/
theorem step_moved (h : e.step engine w = .moved w' e') :
    (∃ after rota, e.move engine w e.rota.place = .moved w' after ∧ e' = { after with rota }) ∨
      w' = w ∧ ∃ rota, e' = { e with rota } := by
  unfold step at h
  split at h
  · dsimp only at h
    split at h
    next moved =>
      cases h
      obtain ⟨rota, same⟩ := @follow_eq engine e w' e.rota.place _
      exact .inl ⟨_, rota, moved, same⟩
    next => cases h
    next =>
      cases h
      exact .inr ⟨rfl, giveWay_eq _⟩
  · split at h
    · cases h
      exact .inr ⟨rfl, _, rfl⟩
    · cases h

theorem step_crashed (h : e.step engine w = .crashed w' reason held) :
    e.move engine w e.rota.place = .crashed w' reason held := by
  unfold step at h
  split at h
  · dsimp only at h
    split at h
    next => cases h
    next crashed =>
      cases h
      exact crashed
    next => cases h
  · split at h <;> cases h

theorem Run.step (so : Run engine pipeline properties state past e)
    (h : e.step engine w = .moved w' e') :
    ∃ more, Run engine pipeline properties state (past ++ more) e' ∧
      w'.history = (records more).reverse ++ w.history := by
  rcases step_moved h with ⟨after, rota, moved, rfl⟩ | ⟨rfl, rota, rfl⟩
  · obtain ⟨news, noted⟩ := grows_of_move moved
    exact ⟨[⟨_, e, after, news⟩], (so.turn moved noted).called rota, by simpa [records] using noted⟩
  · exact ⟨[], by simpa using so.called rota, by simp⟩

theorem Run.wake (so : Run engine pipeline properties state past e) (w : World) :
    Run engine pipeline properties state past (e.wake engine w) := by
  obtain ⟨rota, woken⟩ := @wake_eq engine e w
  rw [woken]
  exact so.called rota

end Execution

namespace Clockwork

variable {σ : Type} {m : Clockwork σ} {P : σ → Prop} {s : σ}

theorem settleWithin_preserves (step : ∀ s s', m.step s = some s' → P s → P s') (fuel : Nat)
    (h : P s) : P (m.settleWithin fuel s) := by
  induction fuel generalizing s with
  | zero => exact h
  | succ fuel ih =>
    unfold settleWithin
    split
    next s' stepped => exact ih (step s s' stepped h)
    next => exact h

/-- What every step and every instant preserves is preserved by running. An instant only comes when
no step can be made, the system has not halted, and something is due then. -/
theorem runWithin_preserves {halted : σ → Bool} (step : ∀ s s', m.step s = some s' → P s → P s')
    (moveTo : ∀ t s, m.step s = none → halted s = false → m.nextDue s = some t → P s →
      P (m.moveTo t s)) (limit : Option Nat) (fuel : Nat) (h : P s) :
    P (m.runWithin halted limit fuel s) := by
  induction fuel generalizing s with
  | zero => exact h
  | succ fuel ih =>
    unfold runWithin
    split
    next s' stepped => exact ih (step s s' stepped h)
    next rest =>
      split
      · exact h
      next unended =>
        split
        next instant due =>
          split
          · exact ih (moveTo instant s rest (by simpa using unended) due h)
          · exact h
        next => exact h

theorem run_preserves {halted : σ → Bool} (step : ∀ s s', m.step s = some s' → P s → P s')
    (moveTo : ∀ t s, m.step s = none → halted s = false → m.nextDue s = some t → P s →
      P (m.moveTo t s)) (limit : Option Nat) (h : P s) : P (m.run halted limit s) :=
  runWithin_preserves step moveTo limit _ h

/-- So it is beside actions that preserve it too. -/
theorem runBeside_preserves (step : ∀ s s', m.step s = some s' → P s → P s')
    (moveTo : ∀ t s, P s → P (m.moveTo t s)) {turn : σ → σ} (turned : ∀ s, P s → P (turn s))
    (halted : σ → Bool) (now : Nat) (beside : List (Nat × (σ → σ)))
    (acts : ∀ a ∈ beside, ∀ s, P s → P (a.2 s)) (h : P s) :
    P (m.runBeside turn halted now beside s) := by
  induction beside generalizing now s with
  | nil => exact run_preserves step (fun t s _ _ _ => moveTo t s) none h
  | cons action rest ih =>
    obtain ⟨wait, act⟩ := action
    have later : ∀ a ∈ rest, ∀ s, P s → P (a.2 s) := fun a mem =>
      acts a (List.mem_cons_of_mem _ mem)
    have acted (s : σ) : P s → P (act s) := acts ⟨wait, act⟩ List.mem_cons_self s
    unfold runBeside
    split
    · exact ih now later (acted s h)
    · have ran := @run_preserves _ m P s halted step (fun t s _ _ _ => moveTo t s)
        (some (now + wait)) h
      dsimp only
      split
      · exact ran
      · have turned := turned _ (moveTo (now + wait) _ ran)
        split
        · exact turned
        · exact ih _ later (acted _ turned)

end Clockwork

/-- `w'` comes from `w` without any note on a stage. -/
def World.Apart (w w' : World) : Prop :=
  ∃ news : List Record, w'.history = news.reverse ++ w.history ∧ ∀ r ∈ news, r.place.path = []

namespace World

variable {w w' w'' : World}

theorem Apart.trans (h : w.Apart w') (h' : w'.Apart w'') : w.Apart w'' := by
  obtain ⟨xs, hx, px⟩ := h
  obtain ⟨ys, hy, py⟩ := h'
  refine ⟨xs ++ ys, by simp [hy, hx], ?_⟩
  intro r hr
  rcases List.mem_append.mp hr with hr | hr
  · exact px r hr
  · exact py r hr

theorem Notes.apart {events : List Event} (h : w.Notes {} events w') : w.Apart w' := by
  obtain ⟨news, noted, here, -⟩ := h
  exact ⟨news, noted, fun r hr => by rw [here r hr]⟩

theorem apart_note (event : Event) : w.Apart (w.note {} event) := ⟨[_], rfl, by simp⟩

theorem apart_noteRetired (events : List PluginEvent) : w.Apart (w.noteRetired events) := by
  induction events with
  | nil => exact ⟨[], rfl, by simp⟩
  | cons event rest ih =>
    cases event with
    | started => exact ih
    | failed => exact ih
    | stopped => exact ih.trans (apart_note _)

end World

namespace Cleanup

variable {runtime : ContainerRuntime} {c c' : Cleanup} {w w' : World}
  {cleanups after : List Cleanup}

/-- A step of a stop begins it or goes on with it. -/
theorem follow_of_step (h : c.step runtime w = some (w', c')) :
    (c.phase = .fresh ∧ c.follow (World.perform {} (runtime.stop c.container)
        (w.note {} (.stop c.container))) = (w', c')) ∨
      ∃ wait, c.phase = .stopping wait ∧ c.follow (World.perform {} wait.rest w) = (w', c') := by
  unfold step at h
  split at h
  next fresh => exact .inl ⟨fresh, Option.some.inj h⟩
  next wait stopping =>
    split at h
    · exact .inr ⟨wait, stopping, Option.some.inj h⟩
    · cases h
  next => cases h

theorem step_of_stepFirst (h : stepFirst runtime w cleanups = some (w', after)) :
    ∃ i c c', cleanups[i]? = some c ∧ c.step runtime w = some (w', c') ∧
      after = cleanups.set i c' := by
  induction cleanups generalizing after with
  | nil => cases h
  | cons c rest ih =>
    unfold stepFirst at h
    split at h
    next stepped =>
      cases h
      exact ⟨0, c, _, rfl, stepped, rfl⟩
    next =>
      obtain ⟨⟨w₁, rest'⟩, inner, he⟩ := Option.map_eq_some_iff.mp h
      cases he
      obtain ⟨i, c₁, c', there, stepped, rfl⟩ := ih inner
      exact ⟨i + 1, c₁, c', there, stepped, rfl⟩

theorem apart_step (h : c.step runtime w = some (w', c')) : w.Apart w' := by
  have followed {w w' : World} {progress : World × Progress (Except Cause Unit)}
      (h : c.follow progress = (w', c')) (before : w.Apart progress.1) : w.Apart w' := by
    obtain ⟨w₁, progress⟩ := progress
    cases progress <;> cases h
    · exact before.trans (World.apart_note _)
    · exact before
    · exact before
  rcases follow_of_step h with ⟨-, begun⟩ | ⟨wait, -, went_on⟩
  · exact followed begun ((World.apart_note _).trans (World.notes_perform _ _).apart)
  · exact followed went_on (World.notes_perform _ _).apart

theorem apart_stepFirst (h : stepFirst runtime w cleanups = some (w', after)) : w.Apart w' := by
  obtain ⟨i, c, c', there, stepped, -⟩ := step_of_stepFirst h
  exact apart_step stepped

end Cleanup

namespace SoloExecution

/-- The history of a world tells of stages what these turns have noted. -/
def Tells (w : World) (past : List Execution.Moment) : Prop :=
  ∀ workflow i way, marksAt ⟨workflow, i :: way⟩ w.history.reverse =
    marksAt ⟨workflow, i :: way⟩ (Execution.records past)

theorem Tells.apart {w w' : World} {past : List Execution.Moment} (tells : Tells w past)
    (apart : w.Apart w') : Tells w' past := by
  obtain ⟨news, noted, outside⟩ := apart
  intro workflow i way
  have silent : marksAt ⟨workflow, i :: way⟩ news = [] := by
    refine marksAt_elsewhere fun r hr hp => ?_
    have outside := outside r hr
    simp [hp] at outside
  simp [noted, silent, tells workflow i way]

/-- An execution by itself has broken down, or it is in the midst of a run that its world tells. -/
def Follows (engine : Engine) (pipeline : Pipeline) (properties : Properties) (state : StateCell)
    (s : SoloExecution) : Prop :=
  s.engine = engine ∧ ((∃ reason, s.execution.phase = .crashed reason) ∨
    ∃ past, Execution.Run engine pipeline properties state past s.execution ∧ Tells s.world past)

variable {engine : Engine} {pipeline : Pipeline} {properties : Properties} {state : StateCell}
  {s s' : SoloExecution}

theorem Follows.step (follows : Follows engine pipeline properties state s)
    (h : s.step = some s') : Follows engine pipeline properties state s' := by
  obtain ⟨rfl, follows⟩ := follows
  unfold SoloExecution.step at h
  split at h
  next w e moved =>
    cases h
    refine ⟨rfl, ?_⟩
    rcases follows with ⟨reason, broken⟩ | ⟨past, so, tells⟩
    · left
      rcases Execution.step_moved moved with ⟨after, rota, moved, -⟩ | ⟨-, rota, rfl⟩
      · simp [Execution.move, broken] at moved
      · exact ⟨reason, broken⟩
    · right
      obtain ⟨more, so, noted⟩ := so.step moved
      refine ⟨_, so, fun workflow i way => ?_⟩
      simp [noted, Execution.records_append, tells workflow i way]
  next w reason held broken =>
    cases h
    exact ⟨rfl, .inl ⟨reason, rfl⟩⟩
  next =>
    obtain ⟨⟨w, cleanups⟩, stepped, he⟩ := Option.map_eq_some_iff.mp h
    cases he
    refine ⟨rfl, follows.imp_right ?_⟩
    rintro ⟨past, so, tells⟩
    exact ⟨past, so, tells.apart (Cleanup.apart_stepFirst stepped)⟩

theorem Follows.moveTo (follows : Follows engine pipeline properties state s) (t : Nat) :
    Follows engine pipeline properties state (clockwork.moveTo t s) := by
  obtain ⟨rfl, follows⟩ := follows
  refine ⟨rfl, ?_⟩
  rcases follows with ⟨reason, broken⟩ | ⟨past, so, tells⟩
  · obtain ⟨rota, woken⟩ := @Execution.wake_eq s.engine s.execution { s.world with clock := t }
    exact .inl ⟨reason, by simpa [clockwork, woken] using broken⟩
  · exact .inr ⟨past, so.wake _, tells⟩

theorem Follows.unregister (follows : Follows engine pipeline properties state s) (name : String) :
    Follows engine pipeline properties state (s.unregister name) := by
  refine ⟨follows.1, follows.2.imp_right ?_⟩
  rintro ⟨past, so, tells⟩
  exact ⟨past, so, tells.apart (World.apart_noteRetired _)⟩

theorem turn_preserves {P : SoloExecution → Prop} (step : ∀ s s', s.step = some s' → P s → P s')
    (h : P s) : P s.turn := by
  have within (fuel : Nat) : ∀ s, P s → P (turnWithin fuel s) := by
    induction fuel with
    | zero => exact fun s h => h
    | succ fuel ih =>
      intro s h
      unfold turnWithin
      split
      next s' stepped =>
        have h := step s s' stepped h
        split
        · exact h
        · exact ih _ h
      next => exact h
  exact within _ s h

theorem Follows.turn (follows : Follows engine pipeline properties state s) :
    Follows engine pipeline properties state s.turn :=
  turn_preserves (fun _ _ stepped follows => follows.step stepped) follows

/-- What an execution by itself comes to, it comes to in a run, unless it breaks down. -/
theorem follows_run {engine : Engine} {world : World} (unused : world.history = [])
    (pipeline : Pipeline) (properties : Properties) (state : StateCell)
    (beside : List (Nat × (SoloExecution → SoloExecution)))
    (acts : ∀ a ∈ beside, ∃ name, a.2 = SoloExecution.unregister name) :
    Follows engine pipeline properties state
      (run ⟨engine, world, { pipeline, properties, state }, []⟩ beside) := by
  have fresh : Follows engine pipeline properties state
      ⟨engine, world, { pipeline, properties, state }, []⟩ :=
    ⟨rfl, .inr ⟨[], .begins, fun workflow i way => by simp [unused]⟩⟩
  unfold run
  dsimp only
  split
  · exact fresh.turn
  · refine Clockwork.runBeside_preserves (fun s s' stepped follows => follows.step stepped)
      (fun t s follows => follows.moveTo t) (fun s follows => follows.turn) _ _ _ ?_ fresh.turn
    intro a mem s follows
    obtain ⟨name, same⟩ := acts a mem
    rw [same]
    exact follows.unregister name

end SoloExecution

end PipelineRunner
