import PipelineRunner.Proofs.TwinTurns
import PipelineRunner.Proofs.WaitingLine

/-! The life of an execution among others. It goes on by its own steps, and whenever the first of
the timers that it waits for is due; what happens beside it, and time that passes while it waits,
changes nothing for it. So two executions of the same pipeline that have gone on equally often have
come as far, and they end alike. -/

namespace PipelineRunner

/-- `w'` comes from `w` without anything being logged for a workflow, and with the same plugins. -/
structure World.Spares (id : String) (w w' : World) : Prop where
  registry : w'.registry = w.registry
  entries : w'.entries id = w.entries id

namespace Execution

/-- Neither has the execution a turn nor does it want one. -/
def IsIdle (e : Execution) : Prop := e.rota.onTurn = false ∧ e.rota.called = false

/-- How an execution of a pipeline lives in worlds where these plugins are: how often it has gone on
since the instant `start`, and what has become of it. -/
inductive Lives (engine : Engine) (registry : Registry) (id : String) (pipeline : Pipeline)
    (start : Nat) : Nat → World → Execution → Prop where
  | begins {w : World} {properties : Properties} (plugins : w.registry = registry)
      (clock : w.clock = start) (unlogged : w.entries id = [])
      (known : properties.workflowId = .ok id) :
    Lives engine registry id pipeline start 0 w { pipeline, properties, state := ⟨.pending, 0⟩ }
  | steps {n : Nat} {w w' : World} {e e' : Execution}
      (so : Lives engine registry id pipeline start n w e) (live : e.result? = none)
      (stepped : e.step engine w = .moved w' e') :
    Lives engine registry id pipeline start (n + 1) w' e'
  | wakes {n : Nat} {w w' : World} {e : Execution}
      (so : Lives engine registry id pipeline start n w e) (idle : e.IsIdle)
      (due : (e.timers.map (·.due)).min? = some w'.clock) (spares : w.Spares id w') :
    Lives engine registry id pipeline start (n + 1) w' (e.wake engine w')
  | beside {n : Nat} {w w' : World} {e : Execution}
      (so : Lives engine registry id pipeline start n w e) (spares : w.Spares id w')
      (clock : w'.clock = w.clock ∨ e.IsIdle) :
    Lives engine registry id pipeline start n w' e

/-- How an execution ends: with a report, or in a breakdown. -/
inductive Ends (engine : Engine) (w : World) (e : Execution) : World → Phase → Prop where
  | reports {report : Report} (phase : e.phase = .over (.ok report)) :
    Ends engine w e w (.over (.ok report))
  | breaks {w' : World} {reason : String} {held : List String} (live : e.result? = none)
      (crashed : e.step engine w = .crashed w' reason held) : Ends engine w e w' (.crashed reason)

variable {κ : Type} {p : Twins κ} {pipeline : Pipeline} {n m : Nat} {w w₁ w' w₁' : World}
  {e e₁ e' e₁' : Execution} {engine : Engine}

theorem step_of_idle (idle : e.IsIdle) : e.step engine w = .blocked := by
  simp [Execution.step, idle.1, idle.2]

/-- Two executions have come as far, and unless they wait it is as long since the one has begun as
since the other. -/
structure Level (p : Twins κ) (w : World) (e : Execution) (w' : World) (e' : Execution) : Prop where
  worlds : w.Alike p w'
  alike : e.Alike p e'
  clocks : p.Meet w.clock w'.clock ∨ e.IsIdle

namespace Level

theorem abreast (level : Level p w e w' e') (awake : ¬e.IsIdle) : w.Abreast p w' :=
  ⟨level.worlds, level.clocks.resolve_right awake⟩

theorem idle_iff (level : Level p w e w' e') : e.IsIdle ↔ e'.IsIdle := by
  rw [IsIdle, IsIdle, level.alike.rota]

theorem beside (level : Level p w e w' e') (spares : w.Spares p.id w₁)
    (clock : w₁.clock = w.clock ∨ e.IsIdle) : Level p w₁ e w' e' where
  worlds := ⟨spares.registry.trans level.worlds.registry, level.worlds.registry',
    spares.entries ▸ level.worlds.entries⟩
  alike := level.alike
  clocks := by
    rcases clock with same | idle
    · exact same ▸ level.clocks
    · exact .inr idle

theorem beside' (level : Level p w e w' e') (spares : w'.Spares p.id' w₁')
    (clock : w₁'.clock = w'.clock ∨ e'.IsIdle) : Level p w e w₁' e' where
  worlds := ⟨level.worlds.registry, spares.registry.trans level.worlds.registry',
    spares.entries ▸ level.worlds.entries⟩
  alike := level.alike
  clocks := by
    rcases clock with same | idle
    · exact same ▸ level.clocks
    · exact .inr (level.idle_iff.mpr idle)

theorem steps (level : Level p w e w' e') (stepped : e.step p.engine w = .moved w₁ e₁)
    (stepped' : e'.step p.engine w' = .moved w₁' e₁') : Level p w₁ e₁ w₁' e₁' := by
  have awake : ¬e.IsIdle := fun idle => by
    rw [step_of_idle idle] at stepped
    cases stepped
  have steps := level.alike.step (level.abreast awake)
  rw [stepped, stepped'] at steps
  cases steps with
  | moved abreast alike => exact ⟨abreast.toAlike, alike, .inl abreast.clocks⟩

theorem first_meet {timers timers' : List Timer} {t t' : Nat}
    (together : List.Forall₂ (fun s s' => p.Meet s.due s'.due) timers timers')
    (first : (timers.map (·.due)).min? = some t) (first' : (timers'.map (·.due)).min? = some t') :
    p.Meet t t' := by
  obtain ⟨mem, least⟩ := List.min?_eq_some_iff.mp first
  obtain ⟨mem', least'⟩ := List.min?_eq_some_iff.mp first'
  have same : timers.map (·.due + p.start') = timers'.map (·.due + p.start) := by
    clear first first' mem mem' least least'
    induction together with
    | nil => rfl
    | cons first others ih => rw [List.map_cons, List.map_cons, ih, show _ + _ = _ + _ from first]
  have reached : ∃ timer ∈ timers, timer.due + p.start' = t' + p.start := by
    obtain ⟨timer', listed', rfl⟩ := List.mem_map.mp mem'
    exact List.mem_map.mp (same ▸ List.mem_map_of_mem listed')
  have reached' : ∃ timer' ∈ timers', timer'.due + p.start = t + p.start' := by
    obtain ⟨timer, listed, rfl⟩ := List.mem_map.mp mem
    exact List.mem_map.mp (same ▸ List.mem_map_of_mem listed)
  obtain ⟨timer, listed, due⟩ := reached
  obtain ⟨timer', listed', due'⟩ := reached'
  have behind := least _ (List.mem_map_of_mem listed)
  have behind' := least' _ (List.mem_map_of_mem listed')
  rw [Twins.Meet]
  omega

theorem wakes (level : Level p w e w' e') (due : (e.timers.map (·.due)).min? = some w₁.clock)
    (due' : (e'.timers.map (·.due)).min? = some w₁'.clock) (spares : w.Spares p.id w₁)
    (spares' : w'.Spares p.id' w₁') :
    Level p w₁ (e.wake p.engine w₁) w₁' (e'.wake p.engine w₁') := by
  have clocks : p.Meet w₁.clock w₁'.clock := first_meet level.alike.timers due due'
  exact ⟨⟨spares.registry.trans level.worlds.registry,
    spares'.registry.trans level.worlds.registry',
    spares.entries ▸ spares'.entries ▸ level.worlds.entries⟩, level.alike.wake clocks, .inl clocks⟩

end Level

/-- Executions of the same pipeline that have gone on equally often have come as far. -/
theorem Lives.level (lives : Lives p.engine p.registry p.id pipeline p.start n w e)
    (lives' : Lives p.engine p.registry p.id' pipeline p.start' n w' e') : Level p w e w' e' := by
  induction lives generalizing w' e' with
  | begins plugins clock unlogged known =>
    generalize counted : 0 = n at lives'
    induction lives' with
    | begins plugins' clock' unlogged' known' =>
      refine ⟨⟨plugins, plugins', ?_⟩, ⟨rfl, known, known', rfl, rfl, .fresh⟩, .inl ?_⟩
      · rw [unlogged, unlogged']
        exact .nil
      · rw [clock, clock', Twins.Meet, Nat.add_comm]
    | steps | wakes => cases counted
    | beside so' spares clock ih => exact (ih counted).beside' spares clock
  | @steps n _ _ _ _ so live stepped ih =>
    generalize counted : n + 1 = m at lives'
    induction lives' with
    | begins => cases counted
    | steps so' live' stepped' =>
      obtain rfl := Nat.succ.inj counted
      exact (ih so').steps stepped stepped'
    | wakes so' idle' due' spares' =>
      obtain rfl := Nat.succ.inj counted
      rw [step_of_idle ((ih so').idle_iff.mpr idle')] at stepped
      cases stepped
    | beside so' spares clock ih' => exact (ih' counted).beside' spares clock
  | @wakes n _ _ _ so idle due spares ih =>
    generalize counted : n + 1 = m at lives'
    induction lives' with
    | begins => cases counted
    | steps so' live' stepped' =>
      obtain rfl := Nat.succ.inj counted
      rw [step_of_idle ((ih so').idle_iff.mp idle)] at stepped'
      cases stepped'
    | wakes so' idle' due' spares' =>
      obtain rfl := Nat.succ.inj counted
      exact (ih so').wakes due due' spares spares'
    | beside so' spares clock ih' => exact (ih' counted).beside' spares clock
  | beside so spares clock ih => exact (ih lives').beside spares clock

/-- An execution has not ended, and time is all that it may wait for. -/
def GoesOn (engine : Engine) (w : World) (e : Execution) : Prop :=
  e.result? = none ∧ (∃ w' e', e.step engine w = .moved w' e') ∨ e.IsIdle ∧ e.timers ≠ []

theorem Ends.over {phase : Phase} (ends : Ends engine w e w₁ phase) : ¬GoesOn engine w e := by
  cases ends with
  | reports phase =>
    rintro (⟨live, -⟩ | ⟨-, waits⟩)
    · simp [result?, phase] at live
    · simp [timers, phase] at waits
  | breaks live crashed =>
    rintro (⟨-, _, _, stepped⟩ | ⟨idle, -⟩)
    · cases crashed.symm.trans stepped
    · cases crashed.symm.trans (step_of_idle idle)

/-- Whatever has gone on further has gone on before. -/
theorem Lives.before {registry : Registry} {id : String} {start : Nat}
    (lives : Lives engine registry id pipeline start n w e) (earlier : m < n) :
    ∃ w₀ e₀, Lives engine registry id pipeline start m w₀ e₀ ∧ GoesOn engine w₀ e₀ := by
  induction lives with
  | begins => omega
  | steps so live stepped ih =>
    rcases Nat.lt_succ_iff_lt_or_eq.mp earlier with earlier | rfl
    · exact ih earlier
    · exact ⟨_, _, so, .inl ⟨live, _, _, stepped⟩⟩
  | wakes so idle due spares ih =>
    rcases Nat.lt_succ_iff_lt_or_eq.mp earlier with earlier | rfl
    · exact ih earlier
    · refine ⟨_, _, so, .inr ⟨idle, fun none_ => ?_⟩⟩
      simp [none_] at due
  | beside so spares clock ih => exact ih earlier

theorem Level.live_iff (level : Level p w e w' e') : e.result? = none ↔ e'.result? = none := by
  obtain ⟨pipeline, properties, state, phase, rota⟩ := e
  obtain ⟨pipeline', properties', state', phase', rota'⟩ := e'
  cases level.alike.phase <;> simp [result?]

theorem Level.goesOn_iff (level : Level p w e w' e') :
    GoesOn p.engine w e ↔ GoesOn p.engine w' e' := by
  have waits : e.timers ≠ [] ↔ e'.timers ≠ [] := by
    rw [← List.length_pos_iff, ← List.length_pos_iff, level.alike.timers.length_eq]
  unfold GoesOn
  rw [level.live_iff, level.idle_iff, waits]
  refine or_congr_left (and_congr_right fun _ => ?_)
  by_cases idle : e.IsIdle
  · simp [step_of_idle idle, step_of_idle (level.idle_iff.mp idle)]
  · have steps := level.alike.step (level.abreast idle)
    generalize e.step p.engine w = turn at steps
    generalize e'.step p.engine w' = turn' at steps
    cases steps with
    | ended _ value => cases value
    | _ => simp

theorem Lives.ends {phase phase' : Phase}
    (lives : Lives p.engine p.registry p.id pipeline p.start n w e)
    (lives' : Lives p.engine p.registry p.id' pipeline p.start' m w' e')
    (ends : Ends p.engine w e w₁ phase) (ends' : Ends p.engine w' e' w₁' phase') :
    w₁.Alike p w₁' ∧ phase.Alike p phase' := by
  -- Whoever had gone on further would have gone on from where the other has ended.
  obtain rfl : n = m := by
    rcases Nat.lt_trichotomy n m with earlier | same | later
    · obtain ⟨w₀, e₀, so, goes⟩ := lives'.before earlier
      exact absurd ((lives.level so).goesOn_iff.mpr goes) ends.over
    · exact same
    · obtain ⟨w₀, e₀, so, goes⟩ := lives.before later
      exact absurd ((Lives.level so lives').goesOn_iff.mp goes) ends'.over
  have level := lives.level lives'
  cases ends with
  | reports phase =>
    cases ends' with
    | reports phase' =>
      have alike := level.alike.phase
      rw [phase, phase'] at alike
      exact ⟨level.worlds, alike⟩
    | breaks live' crashed' =>
      have live := level.live_iff.mpr live'
      simp [result?, phase] at live
  | breaks live crashed =>
    cases ends' with
    | reports phase' =>
      have live' := level.live_iff.mp live
      simp [result?, phase'] at live'
    | breaks live' crashed' =>
      have awake : ¬e.IsIdle := fun idle => by cases crashed.symm.trans (step_of_idle idle)
      have steps := level.alike.step (level.abreast awake)
      rw [crashed, crashed'] at steps
      cases steps with
      | crashed abreast => exact ⟨abreast.toAlike, .crashed _⟩

end Execution

end PipelineRunner
