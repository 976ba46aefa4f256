import PipelineRunner.Proofs.BranchCancellation
import PipelineRunner.Proofs.Promptness

/-! What becomes of calls in flight when a branch has failed. Where the stage right around a branch
fails fast, nobody waits any longer for a call of the branch once a join above has received a
failing branch: the call is over within the same instant, and if it has not answered its step is
cancelled. Where that stage does not fail fast, the call has its time. -/

namespace PipelineRunner

/-! ### Calls in flight -/

theorem inFlight_append (events more : List Event) :
    inFlight (events ++ more) = more.foldl Event.flight (inFlight events) := by
  simp [inFlight]

/-- A call in flight has been in flight before, if none has been made since. -/
theorem inFlight_of_append {events more : List Event} (flight : inFlight (events ++ more) = true)
    (quiet : ∀ event ∈ more, event.begins = false) : inFlight events = true := by
  induction more generalizing events with
  | nil => simpa using flight
  | cons event rest ih =>
    have earlier : inFlight (events ++ [event]) = true :=
      ih (by simpa using flight) fun event mem => quiet event (List.mem_cons_of_mem _ mem)
    have new := quiet event List.mem_cons_self
    rw [inFlight_append] at earlier
    cases event with
    | called => cases new
    | answered | abandoned => cases earlier
    | _ => exact earlier

theorem isOwn_of_endsAttempt {event : Event} (h : event.endsAttempt = true) :
    event.isOwn = true := by
  cases event <;> first | rfl | cases h

/-- Whether a call of a stage is in flight. -/
def OwnSteps.isCalling : OwnSteps → Bool
  | trying _ trial _ _ => trial.inFlight
  | _ => false

namespace StageRun

def isCalling : StageRun → Bool
  | working _ _ _ own => own.isCalling
  | _ => false

variable {stage : Stage} {inherited agent : Agent} {c : Context} {past : List Moment}
  {run run' : StageRun} {workflow : String} {receipts events : List Event} {own : OwnSteps}
  {w w' : World} {path : List Nat} {news : List Record} {r : Record}

theorem Receipts.flight (received : Receipts receipts)
    (custody : Custody stage agent workflow own events) :
    inFlight (receipts ++ events) = own.isCalling := by
  have idle := received.idle
  cases custody with
  | entering =>
    rw [List.append_nil]
    exact idle
  | pulling | pulled | starting => simp [inFlight_append, idle, Event.flight, OwnSteps.isCalling]
  | between open_ called | leaving open_ called | trying open_ called =>
    rw [← List.append_assoc]
    exact ((received.ready open_).goesOn called).2.1
  | stopping open_ called =>
    have quiet := ((received.ready open_).goesOn called).2.1
    rw [← List.append_assoc, ← List.append_assoc, inFlight_append, quiet]
    rfl

/-- The history of a stage tells whether a call is in flight. -/
theorem Run.flight (so : Run stage inherited c past run) :
    inFlight (marksAt c.place (records past)) = run.isCalling := by
  have traced := so.traced
  cases run with
  | fresh =>
    have nothing : marksAt c.place (records past) = [] := traced
    rw [nothing]
    rfl
  | joining => exact Receipts.idle traced
  | settled => exact traced.idle
  | received => exact traced.elim
  | working =>
    obtain ⟨receipts, events, so_far, received, custody⟩ := traced
    rw [so_far]
    exact received.flight custody

end StageRun

/-! ### The end of a call -/

section Ends

variable {c : Context} {w w' : World} {events : List Event} {event : Event}

namespace Trial

variable {t t' : Trial} {attempt : Nat} {result : StepResult}

/-- Under a cancelled token calls have only been made before. -/
theorem Asks.inFlight (h : t.Asks c attempt events) (cancelled : c.cancelled = true) :
    t.inFlight = true := by
  cases h with
  | now ready free => cases free.symm.trans cancelled
  | before calling => simp [Trial.inFlight, calling]

theorem Goes.inFlight (h : t.Goes c events t') (cancelled : c.cancelled = true)
    (mem : event ∈ events) (ended : event.endsAttempt = true) : t.inFlight = true := by
  cases h with
  | waits asks => simp [asks.quiet event mem] at ended
  | pauses asks => exact asks.inFlight cancelled
  | expires calling => simp [Trial.inFlight, calling]
  | resumes => cases mem

theorem Ends.inFlight (h : t.Ends c events result) (cancelled : c.cancelled = true)
    (mem : event ∈ events) : t.inFlight = true := by
  cases h with
  | cancelled | refused => cases mem
  | interrupted calling => exact calling
  | succeeds asks | fails asks => exact asks.inFlight cancelled
  | timedOut calling => simp [Trial.inFlight, calling]

/-- A call that is interrupted and has not answered is given up, and its step with it. -/
theorem cancelled_of_abandoned (h : (t.move c w).world? = some w')
    (noted : w.Notes c.place events w') (mem : .abandoned ∈ events)
    (interrupt : c.interrupt = true) (cancelled : c.cancelled = true) :
    ∃ w', t.move c w = .ended w' (.error .cancelled) := by
  obtain ⟨attempt, deadline, call, calling, -, -⟩ := due_of_abandoned h noted mem
  simp only [move, calling] at h ⊢
  split at h
  · rcases follow_notes (World.notes_perform _ _) h with told | ⟨answer, told⟩
    · rw [noted.unique told] at mem
      cases mem
    · simp [noted.unique told] at mem
  next waits =>
    rw [if_neg waits, if_pos (by simp [interrupt, cancelled])]
    exact ⟨_, rfl⟩

end Trial

namespace OwnSteps

variable {stage : Stage} {agent : Agent} {own own' : OwnSteps} {result : StepsResult}

/-- Only where a step is tried a call may come to its end. -/
theorem Goes.trying_of_ends (h : own.Goes c stage agent events own') (mem : event ∈ events)
    (ended : event.endsAttempt = true) :
    ∃ container trial todo outputs, own = trying container trial todo outputs := by
  by_contra untried
  have quiet := h.quiet fun container trial todo outputs same =>
    untried ⟨container, trial, todo, outputs, same⟩
  simp [quiet event mem] at ended

theorem Goes.isCalling (h : own.Goes c stage agent events own') (cancelled : c.cancelled = true)
    (mem : event ∈ events) (ended : event.endsAttempt = true) : own.isCalling = true := by
  obtain ⟨container, trial, todo, outputs, rfl⟩ := h.trying_of_ends mem ended
  cases h with
  | tries goes => exact goes.inFlight cancelled mem ended
  | succeeds ends | fails ends => exact ends.inFlight cancelled mem
  | pulling fetches | pulled fetches => cases fetches
  | starting starts | started starts => cases starts
  | stopping stops => cases stops

end OwnSteps

namespace StageRun

variable {run run' : StageRun} {path : List Nat} {news : List Record} {r : Record}

/-- A call that is interrupted need not be waited for any longer. -/
theorem isAwake_of_interrupted (calling : run.isCalling = true) (interrupt : c.interrupt = true)
    (cancelled : c.cancelled = true) (w : World) : run.isAwake c w = true := by
  cases run with
  | working stage agent branches own =>
    cases own with
    | trying container trial todo outputs =>
      have flight : trial.inFlight = true := calling
      unfold Trial.inFlight at flight
      split at flight
      next phase =>
        simp [isAwake, OwnSteps.isAwake, Trial.isAwake, phase, interrupt, cancelled]
      next => cases flight
    | _ => cases calling
  | _ => cases calling

/-- Under a cancelled token the end of an attempt is the end of a call that has been in flight. -/
theorem isCalling_of_ends (moved : run.move c w path = .moved w' run')
    (noted : w'.history = news.reverse ++ w.history) (mem : r ∈ news) (here : r.place = c.place)
    (ended : r.event.endsAttempt = true) (cancelled : c.cancelled = true) :
    run.isCalling = true := by
  have own := isOwn_of_endsAttempt ended
  obtain ⟨s, a, branches, own', rfl⟩ := working_of_own moved noted mem here own
  have notable := notable_of_isOwn own
  cases turned_of_move moved with
  | works notes goes => exact goes.isCalling cancelled (notes.mem noted mem notable) ended
  | settles notes ends => simp [ends.quiet _ (notes.mem noted mem notable)] at ended

/-- A call that is given up where branches are interrupted leaves its step cancelled. -/
theorem errs_of_abandoned (moved : run.move c w path = .moved w' run')
    (noted : w'.history = news.reverse ++ w.history) (mem : r ∈ news) (here : r.place = c.place)
    (abandoned : r.event = .abandoned) (interrupt : c.interrupt = true)
    (cancelled : c.cancelled = true) : Moment.Errs ⟨path, run, run', news⟩ .cancelled := by
  obtain ⟨s, a, branches, own, rfl⟩ :=
    working_of_own moved noted mem here (by simp [abandoned, Event.isOwn])
  have among {events : List Event} (notes : w.Notes c.place events w') : .abandoned ∈ events :=
    abandoned ▸ notes.mem noted mem (by simp [abandoned, Event.isAside])
  obtain ⟨turn, -⟩ := own_of_moved moved
  cases turned_of_move moved with
  | works notes goes =>
    obtain ⟨container, trial, todo, outputs, rfl⟩ := goes.trying_of_ends (among notes) rfl
    rw [OwnSteps.move, OwnSteps.followTrial_world?] at turn
    obtain ⟨w₁, ended⟩ := Trial.cancelled_of_abandoned turn notes (among notes) interrupt cancelled
    exact ⟨c, w, w', s, a, branches, _, rfl, .tried ended, moved⟩
  | settles notes ends => cases ends.quiet _ (among notes)

end StageRun

end Ends

namespace Execution

variable {engine : Engine} {pipeline : Pipeline} {properties : Properties} {state : StateCell}
  {past before after : List Moment} {e e' : Execution} {path way : List Nat} {w w' : World}
  {workflow : String} {i j : Nat} {m : Moment} {r s : Record} {news : List Record}
  {deep : StageRun}

/-! ### What is around a call -/

/-- What is under way below a join is interrupted as the stage right around it is declared. -/
theorem Run.interrupt_at (so : Run engine pipeline properties state past e)
    (there : e.stageAt? path = some deep) :
    (e.contextAt engine path).interrupt = pipeline.interrupts path := by
  rcases List.eq_nil_or_concat path with rfl | ⟨init, i, rfl⟩
  · cases there
  rw [List.concat_eq_append] at there ⊢
  by_cases top : init = []
  · subst top
    obtain ⟨workflow, name, whole, todo, results, phase, -⟩ := stageAt?_eq_some there
    simp [contextAt, phase, Pipeline.interrupts, Pipeline.stageAt?]
  · obtain ⟨stage, agent, runs, failure, inner, join, found, context⟩ :=
      @joining_of_stageAt?_append engine e init [] i deep top there
    obtain ⟨workflow, parent, around, known, declared⟩ := so.declared join
    obtain ⟨c, run, own, -, -, stands⟩ := so.descend known declared
    obtain ⟨rfl, -⟩ := stands.of_there join (by simp) (by simp)
    obtain ⟨rfl, -, -⟩ := own.shape
    simp [context, StageRun.Context.inside, Pipeline.interrupts, declared]

/-- The history tells at which stages calls are in flight. -/
theorem Run.flight_iff (so : Run engine pipeline properties state past e)
    (known : properties.workflowId = .ok workflow) (i : Nat) (way : List Nat) :
    inFlight (marksAt ⟨workflow, i :: way⟩ (records past)) = true ↔
      ∃ deep, e.stageAt? (i :: way) = some deep ∧ deep.isCalling = true := by
  rw [so.marksAt_pastAt known]
  constructor
  · intro flight
    cases hp : pipeline.stageAt? (i :: way) with
    | none =>
      rw [so.pastAt_missing hp] at flight
      cases flight
    | some declared =>
      obtain ⟨c, run, own, -, here, stands⟩ := so.descend known hp
      rw [← here, own.flight] at flight
      cases stands with
      | unborn | through => cases flight
      | there there => exact ⟨_, there, flight⟩
  · rintro ⟨deep, there, calling⟩
    obtain ⟨workflow', stage, around, known', declared⟩ := so.declared there
    obtain ⟨c, run, own, -, here, stands⟩ := so.descend known declared
    obtain ⟨rfl, -⟩ := stands.of_there there
      (by rintro s a rfl; cases calling) (by rintro output rfl; cases calling)
    rw [← here, own.flight, calling]

/-! ### In the same instant -/

theorem Run.place_of_received {failed : Bool} (so : Run engine pipeline properties state past e)
    (hr : r ∈ records past) (received : r.event = .received i failed) :
    properties.workflowId = .ok r.place.workflow ∧ ∃ k above, r.place.path = k :: above := by
  rcases so.located hr (by simp [received, Event.isAside]) with
    ⟨state, entered⟩ | ⟨workflow, k, above, stage, around, known, at_, declared⟩
  · cases received.symm.trans entered
  · exact ⟨at_ ▸ known, k, above, by rw [at_]⟩

/-- When nothing is left to be done, no call that is to be interrupted is in flight. -/
theorem Driven.flight_over (so : Driven engine pipeline properties state past w e)
    (rest : e.step engine w = .blocked) (hr : r ∈ records past)
    (failed : r.event = .received i true)
    (interrupts : pipeline.interrupts (r.place.path ++ j :: way) = true) :
    inFlight (marksAt (r.place.below (j :: way)) (records past)) = false := by
  by_contra flight
  rw [Bool.not_eq_false] at flight
  obtain ⟨known, k, above, at_⟩ := so.run.place_of_received hr failed
  have deeper : r.place.path ++ j :: way = k :: (above ++ j :: way) := by simp [at_]
  rw [Place.below, deeper] at flight
  obtain ⟨deep, there, calling⟩ := (so.run.flight_iff known _ _).mp flight
  rw [← deeper] at there
  have cancelled := so.run.cancelled_below hr failed there
  have interrupt := (so.run.interrupt_at there).trans interrupts
  rw [deeper] at there cancelled interrupt
  obtain ⟨workflow, name, whole, todo, results, phase, below⟩ := stageAt?_eq_some there
  have around : e.contextAt engine (k :: (above ++ j :: way)) =
      StageRun.contextAt (outermost engine workflow k) whole (above ++ j :: way) := by
    simp [contextAt, phase]
  refine so.attentive.quiet rest (above ++ j :: way) ?_
  rw [phase]
  rw [around] at cancelled interrupt
  exact ⟨deep, below, .inr (StageRun.isAwake_of_interrupted calling interrupt cancelled w)⟩

/-- An attempt that ends behind the receipt has had its call in flight before the turn. -/
theorem Run.flight_before (so : Run engine pipeline properties state past e)
    (moved : e.move engine w path = .moved w' e')
    (noted : w'.history = news.reverse ++ w.history) (hr : r ∈ records past)
    (failed : r.event = .received i true) (mem : s ∈ news)
    (below : s.place = r.place.below (j :: way)) (ended : s.event.endsAttempt = true) :
    inFlight (marksAt (r.place.below (j :: way)) (records past)) = true := by
  obtain ⟨known, k, above, at_⟩ := so.place_of_received hr failed
  have own := isOfStage_of_isOwn (isOwn_of_endsAttempt ended)
  obtain ⟨deep, deep', path', there, -, place, moved', -⟩ := turn_at moved noted mem own
  have deeper : s.place.path = r.place.path ++ j :: way := by rw [below, Place.below]
  rw [deeper] at there place moved'
  have calling := StageRun.isCalling_of_ends moved' noted mem place.symm ended
    (so.cancelled_below hr failed there)
  rw [at_, List.cons_append] at there
  rw [Place.below, at_, List.cons_append]
  exact (so.flight_iff known _ _).mpr ⟨deep, there, calling⟩

/-- Whatever becomes of a call that is interrupted becomes of it in the instant of the receipt. -/
theorem Driven.at_once (so : Driven engine pipeline properties state past w e)
    {before after : List Record} (split : records past = before ++ r :: after)
    (failed : r.event = .received i true)
    (interrupts : pipeline.interrupts (r.place.path ++ j :: way) = true) :
    (inFlight (marksAt (r.place.below (j :: way)) (records past)) = true → w.clock = r.time) ∧
      ∀ s ∈ after, s.place = r.place.below (j :: way) → s.event.endsAttempt = true →
        s.time = r.time := by
  induction so generalizing before after with
  | begins w => simp at split
  | beside so clock ih =>
    obtain ⟨flight, ends⟩ := ih split
    exact ⟨fun h => clock.trans (flight h), ends⟩
  | later so rest w' ih =>
    obtain ⟨-, ends⟩ := ih split
    refine ⟨fun flight => ?_, ends⟩
    rw [so.flight_over rest (by simp [split]) failed interrupts] at flight
    cases flight
  | @step past w w' e e' so stepped ih =>
    rcases turnIn_of_step stepped with ⟨turned, rota, news, moved, rfl, noted, had⟩ |
      ⟨rfl, ⟨rota, rfl⟩, had⟩
    · have turn := e.move_atOnce engine (w := w) e.rota.place
      rw [moved] at turn
      have now := turn.time_eq noted
      rw [had, records_concat] at split ⊢
      rcases split_append split with ⟨rest, earlier, rfl⟩ | ⟨between, rfl, here⟩
      · -- No call begins behind the receipt, so one in flight now was in flight before the turn.
        obtain ⟨flight, ends⟩ := ih earlier
        have hr : r ∈ records past := by simp [earlier]
        refine ⟨fun h => ?_, fun s mem below ended => ?_⟩
        · rw [marksAt_append] at h
          refine turn.1.trans (flight (inFlight_of_append h fun event mem => ?_))
          obtain ⟨s, hs, below, rfl, -⟩ := exists_of_mem_marksAt mem
          exact (so.run.turn moved noted).begins_nothing rfl hs hr failed below
        · rcases List.mem_append.mp mem with mem | mem
          · exact ends s mem below ended
          · exact (now s mem).trans
              (flight (so.run.flight_before moved noted hr failed mem below ended))
      · have among : news = between ++ r :: after := here
        have time : r.time = w.clock := now r (by simp [among])
        exact ⟨fun _ => turn.1.trans time.symm,
          fun s mem _ _ => (now s (by simp [among, mem])).trans time.symm⟩
    · rw [had, List.append_nil] at split ⊢
      exact ih split

/-- A call that is given up behind the receipt leaves its step cancelled. -/
theorem Run.errs_behind {before after : List Record}
    (so : Run engine pipeline properties state past e)
    (split : records past = before ++ r :: after) (mem : s ∈ after)
    (failed : r.event = .received i true) (below : s.place = r.place.below (j :: way))
    (abandoned : s.event = .abandoned)
    (interrupts : pipeline.interrupts (r.place.path ++ j :: way) = true) :
    ∃ m ∈ pastAt past s.place.path, s ∈ m.news ∧ m.Errs .cancelled := by
  have own : s.event.isOfStage = true := by simp [abandoned, Event.isOfStage, Event.isAside]
  obtain ⟨earlier, m, later, split, mem_news, hr⟩ := so.turn_behind split mem own below
  obtain ⟨stage, around, w, w', deep, deep', path', -, -, there, -, place, moved, noted, had⟩ :=
    so.turn_of_record split mem_news own
  obtain ⟨w₀, w₀', before, -⟩ := so.split split
  refine ⟨_, had, mem_news, ?_⟩
  have deeper : s.place.path = r.place.path ++ j :: way := by rw [below, Place.below]
  rw [deeper] at there place moved
  exact StageRun.errs_of_abandoned moved noted mem_news place.symm abandoned
    ((before.interrupt_at there).trans interrupts) (before.cancelled_below hr failed there)

/-- Once a join has received a failing branch, calls in flight below it are over in that instant
wherever the stage right around them fails fast: no step of the whole is the last while one is in
flight, and one that is given up leaves its step cancelled. Wherever that stage does not fail fast,
though a stage further out may, a call is only given up when its time is up. -/
theorem calls_are_interrupted (so : Driven engine pipeline properties state past w e) :
    ∀ before r after i j way, records past = before ++ r :: after → r.event = .received i true →
      (pipeline.interrupts (r.place.path ++ j :: way) = true →
        (inFlight (marksAt (r.place.below (j :: way)) (records past)) = true →
          w.clock = r.time ∧ e.step engine w ≠ .blocked) ∧
        ∀ s ∈ after, s.place = r.place.below (j :: way) → s.event.endsAttempt = true →
          s.time = r.time ∧ (s.event = .abandoned →
            ∃ m ∈ pastAt past s.place.path, s ∈ m.news ∧ m.Errs .cancelled)) ∧
      (pipeline.interrupts (r.place.path ++ j :: way) = false →
        Patient engine.policy.attemptLimit
          (recordsAt (r.place.below (j :: way)) (records past))) := by
  intro before r after i j way split failed
  have hr : r ∈ records past := by simp [split]
  refine ⟨fun interrupts => ⟨fun flight => ?_, fun s mem below ended => ⟨?_, fun abandoned => ?_⟩⟩,
    fun calm => ?_⟩
  · refine ⟨(so.at_once split failed interrupts).1 flight, fun rest => ?_⟩
    rw [so.flight_over rest hr failed interrupts] at flight
    cases flight
  · exact (so.at_once split failed interrupts).2 s mem below ended
  · exact so.run.errs_behind split mem failed below abandoned interrupts
  · obtain ⟨known, k, above, at_⟩ := so.run.place_of_received hr failed
    have deeper : r.place.path ++ j :: way = k :: (above ++ j :: way) := by simp [at_]
    rw [Place.below, deeper, so.run.recordsAt_pastAt known]
    rw [deeper] at calm
    cases declared : pipeline.stageAt? (k :: (above ++ j :: way)) with
    | none =>
      rw [so.run.pastAt_missing declared]
      exact StageRun.Receipts.patient (by simp [recordsAt, StageRun.Receipts])
    | some found =>
      obtain ⟨c, run, inner, rfl, here, interrupt⟩ := so.run.descend_branch known declared
      exact here ▸ (inner.patient (interrupt.trans calm)).2

end Execution

deriving instance DecidableEq for Remark, Event, Record

namespace Execution.Duo

/-- The call of the left branch hears of the failure of the right one. The call of the inner branch
does not, as the stage right around that does not fail fast. -/
def nestedPipeline : Pipeline where
  agent := .none
  stages := [
    { name := "build"
      failFast := some true
      parallel := [
        { name := "left", steps := [.single "pass" ""] },
        { name := "middle", parallel := [{ name := "inner", steps := [.single "pass" ""] }] },
        { name := "right", steps := [.single "fail" ""] }] }]

/-- Driven until nothing is left to be done in the first instant. -/
def nested : List Moment × World × Execution :=
  drive engine 29 slowWorld { pipeline := nestedPipeline, properties }

theorem nested_driven :
    Driven engine nestedPipeline properties ⟨.pending, 0⟩ nested.1 nested.2.1 nested.2.2 := by
  unfold nested
  simpa only [List.nil_append] using (Driven.begins slowWorld).drive 29

theorem left_interrupted : ∃ before r after, records nested.1 = before ++ r :: after ∧
    r.event = .received 2 true ∧
    (∃ s ∈ after, s.place = r.place.below [0] ∧ s.event = .abandoned ∧ s.time = r.time ∧
      ∃ m ∈ pastAt nested.1 s.place.path, s ∈ m.news ∧ m.Errs .cancelled) ∧
    inFlight (marksAt (r.place.below [1, 0]) (records nested.1)) = true ∧
    nested.2.2.step engine nested.2.1 = .blocked ∧
    Patient engine.policy.attemptLimit (recordsAt (r.place.below [1, 0]) (records nested.1)) := by
  have split : records nested.1 = (records nested.1).take 7 ++
      ⟨0, ⟨"duo", [0]⟩, .received 2 true⟩ :: (records nested.1).drop 8 := by decide +kernel
  have given : ⟨0, ⟨"duo", [0, 0]⟩, .abandoned⟩ ∈ (records nested.1).drop 8 := by decide +kernel
  have flight : inFlight (marksAt ⟨"duo", [0, 1, 0]⟩ (records nested.1)) = true := by decide +kernel
  have off : nested.2.2.rota.onTurn = false := by decide +kernel
  have uncalled : nested.2.2.rota.called = false := by decide +kernel
  obtain ⟨left, -⟩ := calls_are_interrupted nested_driven _ _ _ 2 0 [] split rfl
  obtain ⟨-, inner⟩ := calls_are_interrupted nested_driven _ _ _ 2 1 [0] split rfl
  obtain ⟨time, cancelled⟩ := (left rfl).2 _ given rfl rfl
  exact ⟨_, _, _, split, rfl, ⟨_, given, rfl, rfl, time, cancelled rfl⟩, flight,
    by simp [Execution.step, off, uncalled], inner rfl⟩

end Execution.Duo

end PipelineRunner
