import PipelineRunner.Proofs.Promptness
import PipelineRunner.Proofs.TurnsRunOut

/-! Every execution by itself comes to an end. Turns run out; between two of them the rota only goes
round so often; and when it has come to rest there is somebody who waits for a timer, so that time
goes on until a timer is due. -/

namespace PipelineRunner

/-! ### The rota comes to rest -/

namespace Rota

/-- What an entry in the queue of a place weighs. A round that is broken off calls one branch at
each join further out, so an entry weighs more than all of those together. -/
def weight : List Nat → Nat
  | [] => 4
  | _ :: join => 2 * weight join

def queueWeight : List (List Nat × List Nat) → Nat
  | [] => 0
  | (join, branches) :: rest => branches.length * weight join + queueWeight rest

/-- A round weighs less than the entry that it has taken from its queue. -/
def roundWeight : List Round → Nat
  | [] => 0
  | round :: rest => weight round.join - 1 + roundWeight rest

/-- How often the rota may go round within some rounds before it comes to rest. -/
def potentialWithin (r : Rota) (rounds : List Round) : Nat :=
  queueWeight r.queues + roundWeight rounds + 2 * r.called.toNat + r.onTurn.toNat

def potential (r : Rota) : Nat := r.potentialWithin r.rounds

variable {r r' : Rota} {join way : List Nat} {round : Round} {rounds outer : List Round}

theorem four_le_weight (join : List Nat) : 4 ≤ weight join := by
  induction join with
  | nil => exact Nat.le_refl 4
  | cons i join ih =>
    rw [weight]
    omega

theorem weight_concat (join : List Nat) (branch : Nat) :
    weight (join ++ [branch]) = 2 * weight join := by
  induction join with
  | nil => rfl
  | cons i join ih => rw [List.cons_append, weight, weight, ih]

theorem queueWeight_filter (queues : List (List Nat × List Nat)) (join : List Nat) :
    queueWeight (queues.filter fun q => q.1 != join) +
      ((queues.lookup join).getD []).length * weight join ≤ queueWeight queues := by
  induction queues with
  | nil => simp [queueWeight]
  | cons q rest ih =>
    obtain ⟨key, branches⟩ := q
    by_cases here : key = join
    · simp [here, queueWeight]
      omega
    · have other : (join == key) = false := by simpa using Ne.symm here
      simp [here, List.lookup_cons, other, queueWeight]
      omega

theorem queueWeight_setQueue (r : Rota) (join branches : List Nat) :
    queueWeight (r.setQueue join branches).queues + (r.queue join).length * weight join ≤
      queueWeight r.queues + branches.length * weight join := by
  have filtered := queueWeight_filter r.queues join
  have replaced : queueWeight (r.setQueue join branches).queues = branches.length * weight join +
      queueWeight (r.queues.filter fun q => q.1 != join) := by
    simp [queueWeight, setQueue]
  unfold queue
  omega

theorem queueWeight_enqueue (r : Rota) (join : List Nat) (branch : Nat) :
    queueWeight (r.enqueue join branch).queues ≤ queueWeight r.queues + weight join := by
  unfold enqueue
  split
  · omega
  · have set := queueWeight_setQueue r join (r.queue join ++ [branch])
    simp only [List.length_append, List.length_singleton, Nat.add_mul, Nat.one_mul] at set
    omega

theorem queueWeight_callFrom (here way : List Nat) (r : Rota) :
    queueWeight (callFrom here way r).queues + weight here ≤
      queueWeight r.queues + weight (here ++ way) := by
  induction way generalizing here r with
  | nil => simp [callFrom]
  | cons branch way ih =>
    have later := ih (here ++ [branch]) (r.enqueue here branch)
    have first := queueWeight_enqueue r here branch
    rw [weight_concat, ← List.append_cons] at later
    rw [callFrom]
    omega

theorem queueWeight_call (r : Rota) (place : List Nat) :
    queueWeight (r.call place).queues + 4 ≤ queueWeight r.queues + weight place :=
  queueWeight_callFrom [] place r

theorem potentialWithin_cons (r : Rota) (round : Round) (outer : List Round) :
    r.potentialWithin (round :: outer) = r.potentialWithin outer + (weight round.join - 1) := by
  simp only [potentialWithin, roundWeight]
  omega

/-- Who comes next is taken from the queue. -/
theorem potential_next? (h : r.next? round outer = some r') :
    r'.potential < r.potentialWithin outer := by
  unfold next? at h
  split at h
  next => cases h
  next branch rest queue =>
    cases h
    have heavy := four_le_weight round.join
    have set := queueWeight_setQueue r round.join rest
    rw [queue, List.length_cons, Nat.add_mul, Nat.one_mul] at set
    have flags : (r.setQueue round.join rest).called = r.called ∧
        (r.setQueue round.join rest).onTurn = r.onTurn := ⟨rfl, rfl⟩
    simp only [potential, potentialWithin, roundWeight, flags]
    omega

theorem potentialWithin_call (r : Rota) (place : List Nat) (rounds : List Round) :
    (r.call place).potentialWithin rounds + 2 ≤ r.potentialWithin rounds + weight place := by
  have called := queueWeight_call r place
  have flag : (r.call place).called = true := rfl
  simp only [potentialWithin, call_onTurn, flag, Bool.toNat_true]
  omega

/-- Each time a turn is passed on, less is left of the rounds. -/
theorem potential_yieldWithin (onTurn : r.onTurn = true) (rounds : List Round) :
    (r.yieldWithin rounds).potential < r.potentialWithin rounds := by
  induction rounds generalizing r with
  | nil =>
    simp only [yieldWithin, potential, potentialWithin, onTurn, Bool.toNat_true, Bool.toNat_false]
    omega
  | cons round outer ih =>
    have heavy := four_le_weight round.join
    have within := potentialWithin_cons r round outer
    obtain ⟨broken, left, restless, yields⟩ := yieldWithin_cons r round outer
    rw [yields]
    split
    · have outwards := ih ((call_onTurn r round.join).trans onTurn)
      have called := potentialWithin_call r round.join outer
      omega
    · cases next : r.next? { round with left, restless } outer with
      | none =>
        have outwards := ih onTurn
        rw [Option.getD_none]
        omega
      | some r' =>
        have taken := potential_next? next
        rw [Option.getD_some]
        omega

theorem potential_yield (onTurn : r.onTurn = true) : r.yield.potential < r.potential :=
  potential_yieldWithin onTurn r.rounds

theorem potential_openRound (onTurn : r.onTurn = true) (branches : Nat) :
    (r.openRound branches).potential < r.potential := by
  unfold openRound
  cases next : r.next? { join := r.place, branch := 0, left := branches } r.rounds with
  | none => exact potential_yield onTurn
  | some r' => exact potential_next? next

theorem potential_begin (called : r.called = true) : r.begin.potential < r.potential := by
  simp only [potential, potentialWithin, begin, called, Bool.toNat_true, Bool.toNat_false]
  omega

end Rota

variable {c : Context} {w w' : World}

/-- A step is a turn, or less is left of the rounds behind it. -/
theorem Execution.nearer_of_step {engine : Engine} {e e' : Execution}
    (h : e.step engine w = .moved w' e') :
    e'.phase.Nearer engine.policy e.phase ∨
      e'.phase = e.phase ∧ w' = w ∧ e'.rota.potential < e.rota.potential := by
  unfold step at h
  split at h
  next onTurn =>
    dsimp only at h
    split at h
    next after moved =>
      cases h
      obtain ⟨rota, same⟩ := @follow_eq engine e w' e.rota.place after
      have nearer := nearer_of_move moved
      rw [same]
      exact .inl nearer
    next => cases h
    next =>
      cases h
      unfold giveWay
      split
      · exact .inr ⟨rfl, rfl, Rota.potential_openRound onTurn _⟩
      · exact .inr ⟨rfl, rfl, Rota.potential_yield onTurn⟩
  next =>
    split at h
    next called =>
      cases h
      exact .inr ⟨rfl, rfl, Rota.potential_begin called⟩
    next => cases h

/-! ### Who rests waits -/

theorem Trial.timers_of_waiting {t : Trial} (waiting : t.isWaiting = true)
    (asleep : t.isAwake c w = false) :
    t.timers ≠ [] ∧ ∀ timer ∈ t.timers, w.isDue timer = false := by
  unfold isWaiting at waiting
  unfold isAwake at asleep
  unfold timers
  cases phase : t.phase with
  | ready made => simp [phase] at waiting
  | calling attempt deadline call =>
    simp only [phase, Bool.or_eq_false_iff] at asleep
    simp [asleep]
  | pausing made timer =>
    simp only [phase, Bool.or_eq_false_iff] at asleep
    simp [asleep]

theorem OwnSteps.timers_of_waiting {own : OwnSteps} (waiting : own.isWaiting = true)
    (asleep : own.isAwake c w = false) :
    own.timers ≠ [] ∧ ∀ timer ∈ own.timers, w.isDue timer = false := by
  cases own with
  | trying container trial todo outputs => exact Trial.timers_of_waiting waiting asleep
  | pulling image wait | starting image wait | stopping id wait result =>
    exact ⟨List.cons_ne_nil _ _, fun timer mem => List.mem_singleton.mp mem ▸ asleep⟩
  | _ => cases waiting

namespace StageRun

theorem mem_timersOfAll {timer : Timer} {runs : List StageRun} :
    timer ∈ timersOfAll runs ↔ ∃ run ∈ runs, timer ∈ run.timers := by
  induction runs with
  | nil => simp [timersOfAll]
  | cons run rest ih => simp [timersOfAll, ih]

/-- A join that waits for branches has one that is under way. -/
theorem exists_live {runs : List StageRun} (open_ : outputs? runs = none) :
    ∃ run ∈ runs, run.output? = none := by
  induction runs with
  | nil => cases open_
  | cons run rest ih =>
    cases first : run.output? with
    | none => exact ⟨run, List.mem_cons_self, first⟩
    | some output =>
      have others : outputs? rest = none := by
        cases settled : outputs? rest with
        | none => rfl
        | some outputs =>
          unfold outputs? at open_ settled
          simp [first, settled] at open_
      obtain ⟨live, mem, under_way⟩ := ih others
      exact ⟨live, List.mem_cons_of_mem _ mem, under_way⟩

mutual

/-- Where no turn is wanted timers are waited for, and none of them is due. -/
theorem timers_of_quiet : ∀ {run : StageRun} {c : Context},
    (∀ place, ¬run.Wants c w place) → run.output? = none →
      run.timers ≠ [] ∧ ∀ timer ∈ run.timers, w.isDue timer = false
  | joining stage agent runs failure, c, quiet, _ => by
    have each : ∀ run ∈ runs, run.output? = none →
        run.timers ≠ [] ∧ ∀ timer ∈ run.timers, w.isDue timer = false := by
      refine allTimers_of_quiet fun run mem => ?_
      obtain ⟨i, there⟩ := List.getElem?_of_mem mem
      exact ⟨Context.inside c stage failure i, fun place wants =>
        quiet (i :: place) ((wants_cons i place).mpr ⟨run, there, wants⟩)⟩
    have open_ : outputs? runs = none := by
      rw [← Option.not_isSome_iff_eq_none]
      exact fun all => quiet [] ⟨_, at?_nil _, .inl all⟩
    obtain ⟨live, mem, under_way⟩ := exists_live open_
    obtain ⟨timer, awaited⟩ := List.exists_mem_of_ne_nil _ (each live mem under_way).1
    refine ⟨List.ne_nil_of_mem (mem_timersOfAll.mpr ⟨live, mem, awaited⟩), fun timer awaited => ?_⟩
    obtain ⟨run, mem, awaited⟩ := mem_timersOfAll.mp awaited
    cases output : run.output? with
    | none => exact (each run mem output).2 timer awaited
    | some output =>
      rw [output?_eq_some.mp output] at awaited
      cases awaited
  | working stage agent branches own, c, quiet, _ => by
    have resting := quiet []
    simp only [Wants, at?_nil, Option.some.injEq, contextAt_nil, exists_eq_left', isStirring,
      isAwake, not_or, Bool.not_eq_true, Bool.not_eq_false'] at resting
    exact OwnSteps.timers_of_waiting resting.1 resting.2
  | fresh .., _, quiet, _ => (quiet [] ⟨_, at?_nil _, .inl rfl⟩).elim
  | settled .., _, quiet, _ => (quiet [] ⟨_, at?_nil _, .inl rfl⟩).elim

theorem allTimers_of_quiet : ∀ {runs : List StageRun},
    (∀ run ∈ runs, ∃ c, ∀ place, ¬run.Wants c w place) → ∀ run ∈ runs, run.output? = none →
      run.timers ≠ [] ∧ ∀ timer ∈ run.timers, w.isDue timer = false
  | [], _ => nofun
  | _ :: _, quiet => List.forall_mem_cons.mpr
    ⟨fun live => timers_of_quiet (quiet _ List.mem_cons_self).choose_spec live,
      allTimers_of_quiet fun run mem => quiet run (List.mem_cons_of_mem _ mem)⟩

end

end StageRun

namespace Execution

variable {engine : Engine} {pipeline : Pipeline} {properties : Properties} {state : StateCell}
  {past : List Moment} {e : Execution}

/-- Of a stage of the pipeline itself nobody takes notice but the execution. -/
theorem Run.live (so : Run engine pipeline properties state past e) {workflow name : String}
    {index : Nat} {run : StageRun} {todo : List Stage} {results : StageResults}
    (phase : e.phase = .inStage workflow index name run todo results) : run.output? = none := by
  induction so generalizing run with
  | begins => cases phase
  | called so rota ih => exact ih phase
  | turn so moved noted ih =>
    cases turned_of_move moved with
    | starts =>
      cases phase
      rfl
    | inside before unsettled inner =>
      cases phase
      exact StageRun.live_of_move inner
    | _ => cases phase

/-- An execution in which no turn is wanted before its end waits for timers that are not due. -/
theorem Run.timers_of_quiet (so : Run engine pipeline properties state past e)
    (quiet : ∀ place, ¬e.phase.Wants engine w place) (unended : e.result? = none) :
    e.timers ≠ [] ∧ ∀ timer ∈ e.timers, w.isDue timer = false := by
  unfold timers
  cases phase : e.phase with
  | fresh | between => exact (quiet [] (by rw [phase]; rfl)).elim
  | crashed reason =>
    have fits := so.fits.2.2
    rw [phase] at fits
    exact fits.elim
  | inStage workflow index name run todo results =>
    rw [phase] at quiet
    exact StageRun.timers_of_quiet quiet (so.live phase)
  | _ => simp [result?, phase] at unended

end Execution

/-! ### Clockworks that halt -/

namespace Clockwork

variable {σ μ : Type} {m : Clockwork σ} {P : σ → Prop} {nearer : μ → μ → Prop} {measure : σ → μ}
  {halted : σ → Bool}

/-- A system that every step and every instant brings nearer to an end comes to rest, and then it
has halted or waits for nothing. -/
theorem runWithin_rests (wf : WellFounded nearer)
    (step : ∀ s s', P s → m.step s = some s' → P s' ∧ nearer (measure s') (measure s))
    (moveTo : ∀ s t, P s → m.step s = none → halted s = false → m.nextDue s = some t →
      P (m.moveTo t s) ∧ nearer (measure (m.moveTo t s)) (measure s)) {s : σ} (h : P s) :
    ∃ n, ∀ fuel, n ≤ fuel → ∃ rest, m.runWithin halted none fuel s = rest ∧ P rest ∧
      m.step rest = none ∧ (halted rest = true ∨ m.nextDue rest = none) := by
  induction measured : measure s using wf.induction generalizing s with
  | _ _ ih =>
    subst measured
    -- One more step or instant than the system needs from there on.
    have further {s' : σ} (h' : P s' ∧ nearer (measure s') (measure s))
        (goes : ∀ fuel, m.runWithin halted none (fuel + 1) s = m.runWithin halted none fuel s') :
        ∃ n, ∀ fuel, n ≤ fuel → ∃ rest, m.runWithin halted none fuel s = rest ∧ P rest ∧
          m.step rest = none ∧ (halted rest = true ∨ m.nextDue rest = none) := by
      obtain ⟨n, rests⟩ := ih _ h'.2 h'.1 rfl
      refine ⟨n + 1, fun fuel enough => ?_⟩
      obtain ⟨fuel, rfl⟩ : ∃ k, fuel = k + 1 := ⟨fuel - 1, by omega⟩
      rw [goes]
      exact rests fuel (by omega)
    cases stepped : m.step s with
    | some s' =>
      refine further (step s s' h stepped) fun fuel => ?_
      rw [runWithin, stepped]
    | none =>
      cases ended : halted s with
      | true =>
        refine ⟨1, fun fuel enough => ⟨s, ?_, h, stepped, .inl ended⟩⟩
        obtain ⟨fuel, rfl⟩ : ∃ k, fuel = k + 1 := ⟨fuel - 1, by omega⟩
        simp [runWithin, stepped, ended]
      | false =>
        cases due : m.nextDue s with
        | none =>
          refine ⟨1, fun fuel enough => ⟨s, ?_, h, stepped, .inr due⟩⟩
          obtain ⟨fuel, rfl⟩ : ∃ k, fuel = k + 1 := ⟨fuel - 1, by omega⟩
          simp [runWithin, stepped, ended, due]
        | some t =>
          refine further (moveTo s t h stepped ended due) fun fuel => ?_
          simp [runWithin, stepped, ended, due, isBefore]

end Clockwork

/-! ### Stops in the background -/

namespace Cleanup

/-- A stop is nearer to its end. -/
inductive Nearer : Cleanup → Cleanup → Prop where
  | begins {c c' : Cleanup} (fresh : c.phase = .fresh) (now : c'.phase ≠ .fresh) : Nearer c' c
  | goesOn {c c' : Cleanup} {wait later : Waiting (Except Cause Unit)}
      (before : c.phase = .stopping wait) (now : c'.phase = .stopping later)
      (after : later.After wait) : Nearer c' c
  | ends {c c' : Cleanup} {wait : Waiting (Except Cause Unit)} (before : c.phase = .stopping wait)
      (now : c'.phase = .over) : Nearer c' c

theorem acc_over {c : Cleanup} (through : c.phase = .over) : Acc Nearer c := by
  refine ⟨_, fun next nearer => ?_⟩
  cases nearer with
  | begins fresh => cases through.symm.trans fresh
  | goesOn before => cases through.symm.trans before
  | ends before => cases through.symm.trans before

theorem acc_stopping {c : Cleanup} {wait : Waiting (Except Cause Unit)}
    (stopping : c.phase = .stopping wait) : Acc Nearer c := by
  induction wait using Waiting.wf_after.induction generalizing c with
  | _ wait ih =>
    refine ⟨_, fun next nearer => ?_⟩
    cases nearer with
    | begins fresh => cases stopping.symm.trans fresh
    | goesOn before now after =>
      cases stopping.symm.trans before
      exact ih _ after now
    | ends before now => exact acc_over now

theorem wf_nearer : WellFounded Nearer := by
  have started {c : Cleanup} (now : c.phase ≠ .fresh) : Acc Nearer c := by
    cases phase : c.phase with
    | fresh => exact absurd phase now
    | stopping wait => exact acc_stopping phase
    | _ => exact acc_over phase
  refine ⟨fun c => ⟨_, fun next nearer => ?_⟩⟩
  refine started fun fresh => ?_
  cases nearer with
  | begins _ now => exact now fresh
  | goesOn _ now => cases fresh.symm.trans now
  | ends _ now => cases fresh.symm.trans now

variable {runtime : ContainerRuntime} {c c' : Cleanup} {cleanups after : List Cleanup}

theorem phase_of_follow {progress : World × Progress (Except Cause Unit)}
    (h : c.follow progress = (w', c')) :
    c'.phase = .over ∨ ∃ wait, progress.2 = .waits wait ∧ c'.phase = .stopping wait := by
  obtain ⟨w₁, progress⟩ := progress
  cases progress <;> cases h
  · exact .inl rfl
  · exact .inr ⟨_, rfl, rfl⟩
  · exact .inl rfl

theorem nearer_of_step (h : c.step runtime w = some (w', c')) : c'.Nearer c := by
  rcases follow_of_step h with ⟨fresh, begun⟩ | ⟨wait, stopping, went_on⟩
  · rcases phase_of_follow begun with now | ⟨wait, -, now⟩ <;> exact .begins fresh (by simp [now])
  · rcases phase_of_follow went_on with now | ⟨later, performed, now⟩
    · exact .ends stopping now
    · exact .goesOn stopping now (Waiting.after_of_perform (Prod.ext rfl performed))

theorem nearer_of_stepFirst (h : stepFirst runtime w cleanups = some (w', after)) :
    OneNearer Nearer after cleanups := by
  obtain ⟨i, c, c', there, stepped, rfl⟩ := step_of_stepFirst h
  exact ⟨i, c, c', there, nearer_of_step stepped, rfl⟩

theorem timers_of_blocked (blocked : c.step runtime w = none) :
    ∀ timer ∈ c.timers, w.isDue timer = false := by
  unfold step at blocked
  unfold timers
  split at blocked
  next => cases blocked
  next wait stopping =>
    rw [stopping]
    split at blocked
    next => cases blocked
    next undue => exact fun timer mem => List.mem_singleton.mp mem ▸ by simpa using undue
  next through => simp [through]

theorem blocked_of_rest (rest : stepFirst runtime w cleanups = none) :
    ∀ c ∈ cleanups, c.step runtime w = none := by
  induction cleanups with
  | nil => nofun
  | cons c others ih =>
    unfold stepFirst at rest
    split at rest
    next => cases rest
    next blocked =>
      exact List.forall_mem_cons.mpr ⟨blocked, ih (Option.map_eq_none_iff.mp rest)⟩

/-- Stops that have come to rest wait for timers that are not due. -/
theorem timers_of_rest (rest : stepFirst runtime w cleanups = none) :
    ∀ timer ∈ cleanups.flatMap timers, w.isDue timer = false := by
  intro timer mem
  obtain ⟨c, listed, awaited⟩ := List.mem_flatMap.mp mem
  exact timers_of_blocked (blocked_of_rest rest c listed) timer awaited

end Cleanup

/-! ### An execution by itself comes to an end -/

namespace SoloExecution

/-- How many of the timers that are waited for lie ahead. -/
def ahead (s : SoloExecution) : Nat := (s.timers.filter fun timer => !s.world.isDue timer).length

/-- What comes to an end in an execution by itself, first what counts most. -/
abbrev Left := Execution.Phase × List Cleanup × Nat × Nat

def left (s : SoloExecution) : Left :=
  (s.execution.phase, s.cleanups, s.ahead, s.execution.rota.potential)

/-- Less is left of an execution, or as much of it and less of the stops behind it, and so on. -/
abbrev Less (policy : RetryPolicy) : Left → Left → Prop :=
  Prod.Lex (Execution.Phase.Nearer policy)
    (Prod.Lex (OneNearer Cleanup.Nearer) (Prod.Lex (· < ·) (· < ·)))

theorem wf_less (policy : RetryPolicy) : WellFounded (Less policy) :=
  have stops : WellFounded (OneNearer Cleanup.Nearer) :=
    ⟨fun _ => acc_oneNearer fun c _ => Cleanup.wf_nearer.apply c⟩
  (Prod.lex ⟨_, Execution.Phase.wf_nearer⟩
    (Prod.lex ⟨_, stops⟩ (Prod.lex ⟨_, Nat.lt_wfRel.wf⟩ ⟨_, Nat.lt_wfRel.wf⟩))).wf

variable {s s' : SoloExecution} {t : Nat} {engine : Engine} {pipeline : Pipeline}
  {properties : Properties} {state : StateCell}

theorem less_of_step (h : s.step = some s') : Less s.engine.policy s'.left s.left := by
  unfold step at h
  split at h
  next w e moved =>
    cases h
    rcases Execution.nearer_of_step moved with nearer | ⟨phase, rfl, rota⟩
    · exact .left _ _ nearer
    · have ahead : ahead { s with world := s.world, execution := e } = s.ahead := by
        simp [SoloExecution.ahead, timers, Execution.timers, phase]
      unfold left
      rw [phase, ahead]
      exact .right _ (.right _ (.right _ rota))
  next w reason held broken =>
    cases h
    exact .left _ _ (Execution.nearer_of_crash (Execution.step_crashed broken))
  next =>
    obtain ⟨⟨w, cleanups⟩, stepped, he⟩ := Option.map_eq_some_iff.mp h
    cases he
    exact .right _ (.left _ _ (Cleanup.nearer_of_stepFirst stepped))

/-- Nothing that an execution waits for by itself is overdue when it can make no step, and unless it
has halted it does wait for something. -/
theorem InTime.timers_of_rest (inTime : InTime engine pipeline properties state s)
    (rest : s.step = none) (unended : s.hasHalted = false) :
    s.timers ≠ [] ∧ ∀ timer ∈ s.timers, s.world.clock < timer.due := by
  obtain ⟨rfl, ⟨reason, broken⟩ | ⟨past, so⟩⟩ := inTime
  · simp [hasHalted, broken] at unended
  unfold SoloExecution.step at rest
  split at rest
  next => cases rest
  next => cases rest
  next unmoved uncrashed =>
    have live : s.execution.result? = none := by
      unfold hasHalted at unended
      unfold Execution.result?
      split at unended <;> simp_all
    obtain ⟨some_, undue⟩ :=
      so.run.timers_of_quiet (so.attentive.quiet (Turn.eq_blocked unmoved uncrashed)) live
    refine ⟨List.append_ne_nil_of_left_ne_nil some_ _, fun timer mem => ?_⟩
    have early : s.world.isDue timer = false :=
      List.forall_mem_append.mpr ⟨undue, Cleanup.timers_of_rest (Option.map_eq_none_iff.mp rest)⟩
        timer mem
    simpa [World.isDue] using early

/-- At the next instant fewer timers lie ahead. -/
theorem less_of_moveTo (undue : ∀ timer ∈ s.timers, s.world.clock < timer.due)
    (next : clockwork.nextDue s = some t) :
    Less s.engine.policy (clockwork.moveTo t s).left s.left := by
  obtain ⟨rota, woken⟩ := @Execution.wake_eq s.engine s.execution { s.world with clock := t }
  obtain ⟨timer, awaited, due⟩ := List.mem_map.mp (List.min?_mem next)
  have phase : (clockwork.moveTo t s).execution.phase = s.execution.phase := by
    simp [clockwork, woken]
  have timers : (clockwork.moveTo t s).timers = s.timers := by
    simp [SoloExecution.timers, Execution.timers, clockwork, woken]
  have before : s.ahead = s.timers.length := by
    refine congrArg List.length (List.filter_eq_self.mpr fun timer mem => ?_)
    simpa [World.isDue] using undue timer mem
  have fewer : (clockwork.moveTo t s).ahead < s.ahead := by
    rw [before, ahead, timers]
    refine List.length_filter_lt_length_iff_exists.mpr ⟨timer, awaited, ?_⟩
    simp [clockwork, World.isDue, due]
  unfold left
  rw [phase]
  exact .right _ (.right _ (.left _ _ fewer))

/-- An execution by itself halts, whatever its calls come to. -/
theorem InTime.halts (inTime : InTime engine pipeline properties state s) :
    ∃ n, ∀ fuel, n ≤ fuel → (clockwork.runWithin hasHalted none fuel s).hasHalted = true := by
  obtain ⟨n, rests⟩ := @Clockwork.runWithin_rests _ _ clockwork
    (InTime engine pipeline properties state) _ left hasHalted (wf_less engine.policy)
    (fun s s' inTime stepped => ⟨inTime.step stepped, inTime.1 ▸ less_of_step stepped⟩)
    (fun s t inTime rest unended next => ⟨inTime.moveTo rest t, inTime.1 ▸
      less_of_moveTo (inTime.timers_of_rest rest unended).2 next⟩) s inTime
  refine ⟨n, fun fuel enough => Bool.of_not_eq_false fun unended => ?_⟩
  obtain ⟨s', ran, inTime, rest, idle⟩ := rests fuel enough
  rw [ran] at unended
  have none_ : s'.timers.map (·.due) = [] :=
    List.min?_eq_none_iff.mp (idle.resolve_left (by simp [unended]))
  exact (inTime.timers_of_rest rest unended).1 (List.map_eq_nil_iff.mp none_)

end SoloExecution

end PipelineRunner
