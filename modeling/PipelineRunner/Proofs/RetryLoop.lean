import Mathlib.Algebra.Group.Nat.Defs
import PipelineRunner.Plugin.Scripted
import PipelineRunner.Proofs.AttemptAccounts
import PipelineRunner.Proofs.RegistryRuns
import PipelineRunner.Proofs.TokenForest
import PipelineRunner.Proofs.WantedTurns

/-! A run of a single step keeps to its account: at every moment it stands somewhere on the way
through it, steps and instants lead it on, and it has come to the end of it when it halts. -/

namespace PipelineRunner

/-! ### Standing on the way -/

/-- Whether an event is about a call. -/
def Event.isOfCall : Event → Bool
  | .called .. | .answered _ | .abandoned => true
  | _ => false

namespace SoloStep

/-- Whether the step is cancelled. -/
def isCancelled (s : SoloStep) : Bool := s.tokens.isCancelled s.token

/-- The records about calls. -/
def callRecords (history : List Record) : List Record :=
  history.filter (·.event.isOfCall)

theorem callRecords_note {event : Event} (ofCall : event.isOfCall = true) (w : World) :
    callRecords (w.note {} event).history = ⟨w.clock, {}, event⟩ :: callRecords w.history :=
  List.filter_cons_of_pos ofCall

theorem le_firstAt {kind : Deed → Bool} {now wait c : Nat} {deed : Deed}
    {rest : List (Nat × Deed)} (first : firstAt kind now ((wait, deed) :: rest) = some c) :
    now + wait ≤ c := by
  induction rest generalizing now wait deed with
  | nil =>
    simp only [firstAt] at first
    split at first <;> simp_all
  | cons head rest ih =>
    rw [firstAt] at first
    split at first
    · simp_all
    · have := ih first
      omega

/-- The step in another world and with another status. -/
def put (s : SoloStep) (w : World) (status : SoloStatus) : SoloStep :=
  { s with world := w, status }

/-- What becomes of a step with a turn. -/
def take (s : SoloStep) : Turn Trial StepResult → Option SoloStep
  | .blocked => none
  | .moved w trial => some (s.put w (.trying trial))
  | .ended w result => some (s.put w (.over result))
  | .crashed w reason _ => some (s.put w (.crashed reason))

theorem step_of_trying {s : SoloStep} {trial : Trial} (status : s.status = .trying trial) :
    s.step = s.take (trial.move s.context s.world) := by
  rw [step, status]
  dsimp only
  cases trial.move s.context s.world <;> rfl

theorem quiet_noteRetired (w : World) (news : List PluginEvent) :
    (w.noteRetired news).clock = w.clock ∧ (w.noteRetired news).counters = w.counters ∧
      callRecords (w.noteRetired news).history = callRecords w.history := by
  induction news with
  | nil => exact ⟨rfl, rfl, rfl⟩
  | cons event rest ih =>
    cases event with
    | started | failed => exact ih
    | stopped serial name builtin =>
      exact ⟨ih.1, ih.2.1, (List.filter_cons_of_neg (by simp [Event.isOfCall])).trans ih.2.2⟩

/-- A step that can do nothing now waits and need not go on. -/
theorem idle_of_rests {s : SoloStep} {trial : Trial} (status : s.status = .trying trial)
    (rests : s.step = none) : trial.isWaiting = true ∧ trial.isAwake s.context s.world = false := by
  rw [step_of_trying status] at rests
  rw [← Trial.move_eq_blocked]
  cases turn : trial.move s.context s.world <;> simp [turn, take] at rests ⊢

end SoloStep

/-- What a step goes by: its terms, the plugin that serves it, and the counter of its calls with the
value that it starts from. -/
structure Service where
  terms : Terms
  registration : Registration
  counter : String
  /-- What the calls do that the counter counts. -/
  calls : Nat → Conduct
  used : Nat
  /-- What has been noted of calls before. -/
  before : List Record

namespace Service

variable (v : Service)

/-- The plugin does with each call what the terms say. -/
structure Serves : Prop where
  builtin : v.registration.plugin.builtin = v.terms.builtin
  follows : v.registration.plugin.Follows v.terms.binding.method v.terms.params v.counter v.calls
  calls : ∀ k, v.terms.calls k = v.calls (v.used + k)

/-- The step in a phase. -/
def trial (phase : Trial.Phase) : Trial :=
  { command := v.terms.command, params := v.terms.params, binding := v.terms.binding, phase }

/-- What has been noted of the attempts, and of the call in flight. -/
def Noted (past : List Attempt) (inFlight : List Record) (w : World) : Prop :=
  SoloStep.callRecords w.history = (past.flatMap v.terms.records ++ inFlight).reverse ++ v.before

/-- So many calls have been made. -/
def Counted (calls : Nat) (w : World) : Prop :=
  (OrderedMap.get? v.counter w.counters).getD 0 = v.used + calls

/-- What a call leads to. -/
def reach (s : SoloStep) : Except RegistryError Registration :=
  s.world.registry.reach v.terms.binding.plugin v.terms.binding.method

/-- What has been done from outside was done before an instant. -/
def Precedes (s : SoloStep) (b : Nat) : Prop :=
  (s.isCancelled = true → v.terms.cancelledBy b = true) ∧
  (v.reach s ≠ .ok v.registration → v.terms.removedBy b = true)

/-- What has been done from outside is what the terms tell of the deeds up to now; the others are
still to come. -/
structure Frame (now : Nat) (deeds : List (Nat × SoloStep.Deed)) (s : SoloStep) : Prop where
  policy : s.engine.policy = v.terms.policy
  interrupt : s.interrupt = v.terms.interrupt
  cancelled : s.isCancelled = true ∧
      (v.terms.already = true ∨ ∃ c, v.terms.cancelled = some c ∧ c ≤ s.world.clock) ∨
    s.isCancelled = false ∧ v.terms.already = false ∧
      v.terms.cancelled = SoloStep.firstAt s.cancels now deeds
  removed : v.reach s = .error (.unknownPlugin v.terms.binding.plugin) ∧
      (∃ r, v.terms.removed = some r ∧ r ≤ s.world.clock) ∨
    v.reach s = .ok v.registration ∧
      v.terms.removed = SoloStep.firstAt (SoloStep.removes v.terms.binding.plugin) now deeds
  now_le : now ≤ s.world.clock
  soon : ∀ wait deed rest, deeds = (wait, deed) :: rest → s.world.clock ≤ now + wait

/-- The step is about to begin its next attempt. -/
structure Ready (s : SoloStep) (past : List Attempt) : Prop where
  status : s.status = .trying (v.trial (.ready past.length))
  linked : v.terms.Linked past s.world.clock
  fresh : past ≠ [] → s.isCancelled = false
  precedes : v.Precedes s s.world.clock
  noted : v.Noted past [] s.world
  counted : v.Counted past.length s.world

/-- The step has called at an instant, and waits for the answer until the attempt times out. -/
structure Calling (s : SoloStep) (past : List Attempt) (b : Nat) (deadline : Timer)
    (call : Waiting (Except Cause (Option String))) : Prop where
  status : s.status = .trying (v.trial (.calling (past.length + 1) deadline call))
  linked : v.terms.Linked past b
  allowed : v.terms.cancelledBy b = false
  served : v.terms.removedBy b = false
  limit : deadline.due = b + v.terms.limit
  finish : call.timer.due = v.terms.finish (past.length + 1) b
  rest : call.rest = .done (v.terms.calls (past.length + 1)).answer
  early : s.world.clock ≤ min deadline.due call.timer.due
  precedes : v.Precedes s (min deadline.due call.timer.due)
  cut : v.terms.interrupt = true → s.isCancelled = true → v.terms.cancelled = some s.world.clock
  noted : v.Noted past [v.terms.calledAt b] s.world
  counted : v.Counted (past.length + 1) s.world

/-- The step pauses behind a failed attempt. -/
structure Pausing (s : SoloStep) (past : List Attempt) (a : Attempt) (timer : Timer) : Prop where
  status : s.status = .trying (v.trial (.pausing (past.length + 1) timer))
  linked : v.terms.Linked (past ++ [a]) timer.due
  early : s.world.clock ≤ timer.due
  precedes : v.Precedes s timer.due
  cut : s.isCancelled = true → ∃ c, v.terms.cancelled = some c ∧ s.world.clock = max a.ended c
  behind : a.ended ≤ s.world.clock
  noted : v.Noted (past ++ [a]) [] s.world
  counted : v.Counted (past.length + 1) s.world

/-- Where a step stands. -/
inductive Standing (s : SoloStep) : Prop where
  | ready {past : List Attempt} (here : v.Ready s past)
  | calling {past : List Attempt} {b : Nat} {deadline : Timer}
      {call : Waiting (Except Cause (Option String))} (here : v.Calling s past b deadline call)
  | pausing {past : List Attempt} {a : Attempt} {timer : Timer} (here : v.Pausing s past a timer)
  | through {attempts : List Attempt} {result : StepResult} (status : s.status = .over result)
      (account : v.terms.Account attempts result s.world.clock)
      (noted : v.Noted attempts [] s.world)

variable {v} {s s' : SoloStep} {now : Nat} {deeds : List (Nat × SoloStep.Deed)}

/-- A step that only its own turns have changed. -/
structure Kept (s s' : SoloStep) : Prop where
  engine : s'.engine = s.engine
  interrupt : s'.interrupt = s.interrupt
  tokens : s'.tokens = s.tokens
  token : s'.token = s.token
  registry : s'.world.registry = s.world.registry

theorem kept_put {w : World} (registry : w.registry = s.world.registry) (status : SoloStatus) :
    Kept s (s.put w status) :=
  ⟨rfl, rfl, rfl, rfl, registry⟩

theorem Kept.isCancelled (kept : Kept s s') : s'.isCancelled = s.isCancelled := by
  rw [SoloStep.isCancelled, kept.tokens, kept.token]
  rfl

theorem Kept.reach (kept : Kept s s') : v.reach s' = v.reach s := by
  rw [Service.reach, kept.registry]
  rfl

theorem Kept.precedes {b : Nat} (kept : Kept s s') (precedes : v.Precedes s b) :
    v.Precedes s' b := by
  rw [Precedes, kept.isCancelled, kept.reach]
  exact precedes

theorem Kept.frame (kept : Kept s s') (clock : s'.world.clock = s.world.clock)
    (frame : v.Frame now deeds s) : v.Frame now deeds s' := by
  have cancels : s'.cancels = s.cancels := by
    funext deed
    cases deed <;> simp [SoloStep.cancels, kept.tokens, kept.token]
  refine ⟨kept.engine ▸ frame.policy, kept.interrupt ▸ frame.interrupt, ?_, ?_,
    clock ▸ frame.now_le, fun wait deed rest same => clock ▸ frame.soon wait deed rest same⟩
  · rw [kept.isCancelled, cancels, clock]
    exact frame.cancelled
  · rw [kept.reach, clock]
    exact frame.removed

theorem Precedes.mono {b c : Nat} (precedes : v.Precedes s b) (le : b ≤ c) : v.Precedes s c :=
  ⟨fun h => Terms.cancelledBy_mono le (precedes.1 h), fun h =>
    Terms.removedBy_mono le (precedes.2 h)⟩

/-- What the terms tell of deeds that are still to come lies ahead. -/
theorem Frame.le_of_firstAt (frame : v.Frame now deeds s) {kind : SoloStep.Deed → Bool} {c : Nat}
    (first : SoloStep.firstAt kind now deeds = some c) : s.world.clock ≤ c := by
  cases deeds with
  | nil => simp [SoloStep.firstAt] at first
  | cons head rest =>
    exact Nat.le_trans (frame.soon _ _ _ rfl) (SoloStep.le_firstAt first)

theorem Frame.cancelledBy (frame : v.Frame now deeds s) (free : s.isCancelled = false) :
    v.terms.cancelledBy s.world.clock = false := by
  rcases frame.cancelled with ⟨cancelled, -⟩ | ⟨-, fresh, later⟩
  · simp [free] at cancelled
  · cases at_c : v.terms.cancelled with
    | none => simp [Terms.cancelledBy, fresh, at_c]
    | some c => simpa [Terms.cancelledBy, fresh, at_c] using frame.le_of_firstAt (at_c ▸ later).symm

/-- The instant of the cancellation. -/
theorem Frame.cancelled_at (frame : v.Frame now deeds s) (cancelled : s.isCancelled = true)
    (fresh : v.terms.already = false) : ∃ c, v.terms.cancelled = some c ∧ c ≤ s.world.clock := by
  rcases frame.cancelled with ⟨-, already | at_c⟩ | ⟨free, -⟩
  · simp [fresh] at already
  · exact at_c
  · simp [cancelled] at free

theorem Frame.removedBy (frame : v.Frame now deeds s) (served : v.reach s = .ok v.registration) :
    v.terms.removedBy s.world.clock = false := by
  rcases frame.removed with ⟨gone, -⟩ | ⟨-, later⟩
  · simp [served] at gone
  · cases at_r : v.terms.removed with
    | none => simp [Terms.removedBy, at_r]
    | some r => simpa [Terms.removedBy, at_r] using frame.le_of_firstAt (at_r ▸ later).symm

variable (v) in
/-- How many attempts there may be. -/
def room : Nat := max 1 v.terms.policy.maxAttempts

variable (v) in
/-- How far a step is from its end at most, in steps and instants. -/
def rank (s : SoloStep) : Nat :=
  match s.status with
  | .trying trial =>
    match trial.phase with
    | .ready made => 5 * (v.room - made)
    | .calling attempt deadline call => 5 * (v.room - attempt) +
      if s.world.clock < min deadline.due call.timer.due then 4 else 3
    | .pausing made timer => 5 * (v.room - made) + if s.world.clock < timer.due then 2 else 1
  | _ => 0

variable (v) in
/-- The turn leaves the step somewhere on its way, at most so far from its end. -/
def Lands (now : Nat) (deeds : List (Nat × SoloStep.Deed)) (s : SoloStep)
    (turn : Turn Trial StepResult) (left : Nat) : Prop :=
  ∃ s', s.take turn = some s' ∧ v.Frame now deeds s' ∧ v.Standing s' ∧ v.rank s' ≤ left

/-- What is shown of every turn of a step. -/
def GoesOn (v : Service) (now : Nat) (deeds : List (Nat × SoloStep.Deed)) (s s' : SoloStep) :
    Prop :=
  v.Frame now deeds s' ∧ v.Standing s' ∧ v.rank s' < v.rank s

variable {turn : Turn Trial StepResult} {left : Nat} {w : World} {past : List Attempt} {b : Nat}

theorem Lands.mono (lands : v.Lands now deeds s turn left) {more : Nat} (le : left ≤ more) :
    v.Lands now deeds s turn more := by
  obtain ⟨s', taken, frame', standing, rank⟩ := lands
  exact ⟨s', taken, frame', standing, by omega⟩

theorem Lands.goesOn (lands : v.Lands now deeds s turn left) (taken : s.take turn = some s')
    (less : left < v.rank s) : v.GoesOn now deeds s s' := by
  obtain ⟨s'', taken', frame', standing, rank⟩ := lands
  obtain rfl : s'' = s' := by simpa [taken'] using taken
  exact ⟨frame', standing, by omega⟩

theorem lands_of_account (frame : v.Frame now deeds s) {attempts : List Attempt}
    {result : StepResult} (clock : w.clock = s.world.clock)
    (registry : w.registry = s.world.registry)
    (account : v.terms.Account attempts result s.world.clock) (noted : v.Noted attempts [] w) :
    v.Lands now deeds s (.ended w result) left :=
  ⟨s.put w (.over result), rfl, (kept_put registry _).frame clock frame,
    .through rfl (show v.terms.Account _ _ w.clock from clock ▸ account) noted, Nat.zero_le _⟩

/-- Behind an attempt that has failed, the step pauses or is over. -/
theorem lands_of_retry (phase : Trial.Phase) (e : StepError) {a : Attempt}
    (frame : v.Frame now deeds s) (linked : v.terms.Linked past b)
    (allowed : v.terms.cancelledBy b = false)
    (is : v.terms.attempt (past.length + 1) b = a)
    (result : v.terms.resultOf (past.length + 1) a.ending = .error e)
    (retryable : e.isRetryable = a.ending.isRetryable)
    (clock : w.clock = s.world.clock) (ended : a.ended = s.world.clock)
    (registry : w.registry = s.world.registry)
    (precedes : v.Precedes s s.world.clock)
    (noted : v.Noted (past ++ [a]) [] w)
    (counted : a.ending.isRetryable = true → v.Counted (past.length + 1) w) :
    v.Lands now deeds s ((v.trial phase).retry s.context (past.length + 1) e w)
      (5 * (v.room - (past.length + 1)) + 2) := by
  have policy : s.context.engine.policy = v.terms.policy := frame.policy
  by_cases last : !e.isRetryable || s.context.engine.policy.maxAttempts ≤ past.length + 1
  · have account := linked.account allowed is fun failed => by
      simpa [retryable, failed, policy] using last
    rw [result, ended] at account
    rw [Trial.retry, if_pos last]
    exact lands_of_account frame clock registry account noted
  · simp only [Bool.or_eq_true, Bool.not_eq_true', decide_eq_true_eq, not_or, Nat.not_le,
      Bool.not_eq_false] at last
    have failed : a.ending.isRetryable = true := retryable ▸ last.1
    have linked' := linked.append allowed (is ▸ failed) (policy ▸ last.2)
    rw [is, ended] at linked'
    let timer : Timer := ⟨w.clock + v.terms.pause (past.length + 1), w.tickets⟩
    let paused : SoloStatus := .trying (v.trial (.pausing (past.length + 1) timer))
    have kept : Kept s (s.put { w with tickets := w.tickets + 1 } paused) :=
      kept_put (w := { w with tickets := w.tickets + 1 }) registry paused
    have due : timer.due = s.world.clock + v.terms.pause (past.length + 1) := by
      rw [← clock]
    refine ⟨_, ?_, kept.frame clock frame, .pausing (a := a) ⟨rfl, due ▸ linked',
      Nat.le_add_right .., kept.precedes (precedes.mono (by omega)), fun cancelled => ?_,
      ended.trans clock.symm ▸ Nat.le_refl _, noted, counted failed⟩, ?_⟩
    · rw [Trial.retry, if_neg (by simp [last])]
      simp [World.setTimer, SoloStep.take, paused, timer, Terms.pause, policy]
      rfl
    · obtain ⟨c, at_c, le⟩ := frame.cancelled_at (kept.isCancelled ▸ cancelled)
        (Terms.already_of_not_cancelledBy allowed)
      refine ⟨c, at_c, ?_⟩
      show w.clock = max a.ended c
      omega
    · refine Nat.add_le_add_left (n := if w.clock < timer.due then 2 else 1) ?_ _
      split <;> decide

/-- Noting the end of a call closes the records of its attempt. -/
theorem Noted.close {a : Attempt} (event : Event)
    (noted : v.Noted past [v.terms.calledAt b] w)
    (ofCall : event.isOfCall = true)
    (records : v.terms.records a = [v.terms.calledAt b, ⟨w.clock, {}, event⟩]) :
    v.Noted (past ++ [a]) [] (w.note {} event) := by
  rw [Noted, SoloStep.callRecords_note ofCall, noted]
  simp [records]

/-- A call that answers in time ends its attempt. -/
theorem lands_of_answer (phase : Trial.Phase) (earlier : Option Timer)
    (frame : v.Frame now deeds s) (linked : v.terms.Linked past b)
    (allowed : v.terms.cancelledBy b = false) (served : v.terms.removedBy b = false)
    (waited : v.terms.interrupt = true → ∀ c, v.terms.cancelled = some c →
      min (v.terms.finish (past.length + 1) b) (b + v.terms.limit) ≤ c)
    (inTime : v.terms.finish (past.length + 1) b ≤ b + v.terms.limit)
    (clock : w.clock = s.world.clock)
    (ended : v.terms.finish (past.length + 1) b = s.world.clock)
    (registry : w.registry = s.world.registry) (precedes : v.Precedes s s.world.clock)
    (noted : v.Noted past [v.terms.calledAt b] w) (counted : v.Counted (past.length + 1) w) :
    v.Lands now deeds s ((v.trial phase).follow s.context (past.length + 1) earlier
        (w, .finished (v.terms.calls (past.length + 1)).answer))
      (5 * (v.room - (past.length + 1)) + 2) := by
  have is := Terms.attempt_of_waited (k := past.length + 1) served waited
  rw [if_pos inTime, ended] at is
  have noted' := noted.close (.answered (v.terms.calls (past.length + 1)).answer) rfl
    (a := ⟨b, s.world.clock, .answered (v.terms.calls (past.length + 1)).answer⟩) (by
      rw [clock]
      rfl)
  cases answer : (v.terms.calls (past.length + 1)).answer with
  | ok output =>
    rw [answer] at is noted'
    have account := linked.account allowed is fun failed => by simp [Ending.isRetryable] at failed
    exact lands_of_account (w := w.note {} _) frame clock registry account noted'
  | error cause =>
    rw [answer] at is noted'
    exact lands_of_retry phase _ frame linked allowed is rfl rfl clock rfl registry precedes
      noted' fun _ => counted

theorem Counted.countUp {calls : Nat} (counted : v.Counted calls w) :
    v.Counted (calls + 1) (w.countUp v.counter).1 := by
  simp only [Counted, World.countUp, OrderedMap.get?_insert_self, Option.getD_some]
  rw [counted]
  rfl

/-- The next call does what the terms say. -/
theorem perform_call (serves : v.Serves) {calls : Nat} (counted : v.Counted calls w) :
    World.perform {} (v.registration.plugin.invoke v.terms.binding.method v.terms.params) w =
      World.perform {} (.sleep (v.terms.calls (calls + 1)).time fun _ =>
        .done (v.terms.calls (calls + 1)).answer) (w.countUp v.counter).1 := by
  rw [serves.follows, World.perform]
  simp only [World.countUp, serves.calls]
  rw [counted]
  rfl

theorem Noted.open (noted : v.Noted past [] w) :
    v.Noted past [v.terms.calledAt w.clock] (w.note {} v.terms.called) := by
  rw [Noted, SoloStep.callRecords_note rfl, noted]
  simp [Terms.calledAt]

/-! ### A step that is ready -/

namespace Ready

/-- Without its plugin an attempt fails at once. -/
theorem lands_unserved (ready : v.Ready s past) (phase : Trial.Phase)
    (frame : v.Frame now deeds s) (free : s.isCancelled = false)
    (gone : v.reach s = .error (.unknownPlugin v.terms.binding.plugin)) :
    v.Lands now deeds s ((v.trial phase).begin s.context (past.length + 1) s.world)
      (5 * (v.room - (past.length + 1)) + 2) := by
  have is := Terms.attempt_of_removed (k := past.length + 1) (ready.precedes.2 (by simp [gone]))
  have lands := lands_of_retry phase (.rejected v.terms.command
    (RegistryError.unknownPlugin v.terms.binding.plugin).message) frame ready.linked
    (frame.cancelledBy free) is rfl rfl rfl rfl rfl ready.precedes
    (by simpa [Noted, Terms.records] using ready.noted)
    fun failed => by simp [Ending.isRetryable] at failed
  rw [Service.reach] at gone
  simp only [Trial.begin, Service.trial, gone]
  exact lands

theorem begin_eq (ready : v.Ready s past) (phase : Trial.Phase) (serves : v.Serves)
    (there : v.reach s = .ok v.registration) :
    (v.trial phase).begin s.context (past.length + 1) s.world =
      (v.trial phase).follow s.context (past.length + 1) none
        (World.perform {} (.sleep (v.terms.calls (past.length + 1)).time fun _ =>
            .done (v.terms.calls (past.length + 1)).answer)
          ((s.world.note {} v.terms.called).countUp v.counter).1) := by
  rw [Service.reach] at there
  rw [← perform_call (w := s.world.note {} v.terms.called) serves ready.counted]
  simp only [Trial.begin, Service.trial, there, serves.builtin]
  rfl

/-- A call that takes no time ends its attempt at once. -/
theorem lands_atOnce (ready : v.Ready s past) (phase : Trial.Phase) (frame : v.Frame now deeds s)
    (free : s.isCancelled = false) (there : v.reach s = .ok v.registration)
    (w : World) (called : w = ((s.world.note {} v.terms.called).countUp v.counter).1)
    (time : (v.terms.calls (past.length + 1)).time = 0) :
    v.Lands now deeds s ((v.trial phase).follow s.context (past.length + 1) none
        (w, .finished (v.terms.calls (past.length + 1)).answer))
      (5 * (v.room - (past.length + 1)) + 2) := by
  have allowed := frame.cancelledBy free
  have ended : v.terms.finish (past.length + 1) s.world.clock = s.world.clock := by
    simp [Terms.finish, time]
  have waited (_ : v.terms.interrupt = true) (c : Nat) (at_c : v.terms.cancelled = some c) :
      min (v.terms.finish (past.length + 1) s.world.clock) (s.world.clock + v.terms.limit) ≤ c := by
    have := Terms.le_of_not_cancelledBy allowed at_c
    omega
  subst called
  exact lands_of_answer phase none frame ready.linked allowed (frame.removedBy there) waited
    (by omega) rfl ended rfl ready.precedes ready.noted.open
    (Counted.countUp (w := s.world.note {} v.terms.called) ready.counted)

theorem lands_calling (ready : v.Ready s past) (phase : Trial.Phase) (frame : v.Frame now deeds s)
    (free : s.isCancelled = false) (there : v.reach s = .ok v.registration)
    (w : World) (called : w = ((s.world.note {} v.terms.called).countUp v.counter).1) {ms : Nat}
    (time : (v.terms.calls (past.length + 1)).time = ms + 1) :
    v.Lands now deeds s ((v.trial phase).follow s.context (past.length + 1) none
        (World.perform {} (.sleep (ms + 1) fun _ =>
          .done (v.terms.calls (past.length + 1)).answer) w))
      (5 * (v.room - (past.length + 1)) + 4) := by
  let timer : Timer := ⟨w.clock + min (ms + 1) longestWait, w.tickets⟩
  let deadline : Timer := ⟨w.clock + v.terms.limit, w.tickets + 1⟩
  let calling : SoloStatus := .trying (v.trial (.calling (past.length + 1) deadline
    ⟨timer, fun _ => .done (v.terms.calls (past.length + 1)).answer⟩))
  have clock : w.clock = s.world.clock := by rw [called]; rfl
  have kept : Kept s (s.put { w with tickets := w.tickets + 1 + 1 } calling) :=
    kept_put (w := { w with tickets := w.tickets + 1 + 1 }) (by rw [called]; rfl) calling
  have later : s.world.clock ≤ min deadline.due timer.due := by
    show s.world.clock ≤ min (w.clock + _) (w.clock + _)
    omega
  have finish : timer.due = v.terms.finish (past.length + 1) s.world.clock := by
    simp only [Terms.finish, time, ← clock]
    rfl
  refine ⟨_, ?_, kept.frame clock frame, .calling (b := s.world.clock) ⟨rfl, ready.linked,
    frame.cancelledBy free, frame.removedBy there, clock ▸ rfl, finish, rfl,
    Nat.le_trans (Nat.le_of_eq clock) later, kept.precedes (ready.precedes.mono later),
    fun _ cancelled => ?_, ?_, ?_⟩, ?_⟩
  · have policy : s.context.engine.policy = v.terms.policy := frame.policy
    rw [World.perform, Trial.follow]
    simp only [World.setTimer, SoloStep.take, policy]
    rfl
  · rw [kept.isCancelled, free] at cancelled
    cases cancelled
  · subst called
    exact ready.noted.open
  · subst called
    exact Counted.countUp (w := s.world.note {} v.terms.called) ready.counted
  · refine Nat.add_le_add_left (n := if w.clock < min deadline.due timer.due then 4 else 3) ?_ _
    split <;> decide

/-- An attempt begins, and may end at once. -/
theorem lands (ready : v.Ready s past) (phase : Trial.Phase) (serves : v.Serves)
    (frame : v.Frame now deeds s) (free : s.isCancelled = false) :
    v.Lands now deeds s ((v.trial phase).begin s.context (past.length + 1) s.world)
      (5 * (v.room - (past.length + 1)) + 4) := by
  rcases frame.removed with ⟨gone, -⟩ | ⟨there, -⟩
  · exact (ready.lands_unserved phase frame free gone).mono (by omega)
  · rw [ready.begin_eq phase serves there]
    cases time : (v.terms.calls (past.length + 1)).time with
    | zero => exact (ready.lands_atOnce phase frame free there _ rfl time).mono (by omega)
    | succ ms => exact ready.lands_calling phase frame free there _ rfl time

theorem goesOn (ready : v.Ready s past) (serves : v.Serves) (frame : v.Frame now deeds s)
    (stepped : s.step = some s') : v.GoesOn now deeds s s' := by
  have room : past.length < v.room := ready.linked.length_lt
  have rank : v.rank s = 5 * (v.room - past.length) := by
    simp only [Service.rank, ready.status, Service.trial]
  have moved : (v.trial (.ready past.length)).move s.context s.world =
      if s.isCancelled then .ended s.world (.error .cancelled)
      else (v.trial (.ready past.length)).begin s.context (past.length + 1) s.world := rfl
  rw [SoloStep.step_of_trying ready.status, moved] at stepped
  cases cancelled : s.isCancelled with
  | true =>
    rw [cancelled, if_pos rfl] at stepped
    -- Only before its first attempt a ready step may find itself cancelled.
    obtain rfl : past = [] := by
      by_contra some
      simp [ready.fresh some] at cancelled
    have account := ready.linked.account_of_cancelled (ready.precedes.1 cancelled)
      (fun _ => ready.linked.eq_start) (by simp)
    exact (lands_of_account frame rfl rfl account ready.noted).goesOn stepped
      (show 0 < v.rank s by omega)
  | false =>
    rw [cancelled, if_neg (by decide)] at stepped
    exact (ready.lands _ serves frame cancelled).goesOn stepped (by omega)

end Ready

/-! ### A step that waits for an answer -/

namespace Calling

variable {deadline : Timer} {call : Waiting (Except Cause (Option String))}

theorem move_eq (v : Service) (frame : v.Frame now deeds s) :
    (v.trial (.calling (past.length + 1) deadline call)).move s.context s.world =
      if call.timer.due ≤ s.world.clock then
        (v.trial (.calling (past.length + 1) deadline call)).follow s.context (past.length + 1)
          (some deadline) (World.perform {} call.rest s.world)
      else if v.terms.interrupt && s.isCancelled then
        .ended (s.world.note {} .abandoned) (.error .cancelled)
      else if deadline.due ≤ s.world.clock then
        (v.trial (.calling (past.length + 1) deadline call)).retry s.context (past.length + 1)
          (.timedOut v.terms.command (past.length + 1) v.terms.policy.attemptTimeout)
          (s.world.note {} .abandoned)
      else .blocked := by
  simp only [Trial.move, Service.trial, World.isDue, decide_eq_true_eq]
  rw [← frame.interrupt, ← frame.policy]
  rfl

/-- The call answers, in time and before the step is cancelled. -/
theorem lands_answered (calling : v.Calling s past b deadline call) (frame : v.Frame now deeds s)
    (answered : call.timer.due ≤ s.world.clock) :
    v.Lands now deeds s ((v.trial (.calling (past.length + 1) deadline call)).follow s.context
        (past.length + 1) (some deadline) (World.perform {} call.rest s.world))
      (5 * (v.room - (past.length + 1)) + 2) := by
  have limit := calling.limit
  have finish := calling.finish
  have early := calling.early
  have waited (i : v.terms.interrupt = true) (c : Nat) (at_c : v.terms.cancelled = some c) :
      min (v.terms.finish (past.length + 1) b) (b + v.terms.limit) ≤ c := by
    cases cancelled : s.isCancelled with
    | true =>
      have now : c = s.world.clock := by simpa [at_c] using calling.cut i cancelled
      omega
    | false =>
      have := Terms.le_of_not_cancelledBy (frame.cancelledBy cancelled) at_c
      omega
  rw [calling.rest]
  exact lands_of_answer _ (some deadline) frame calling.linked calling.allowed calling.served waited
    (by omega) rfl (by omega) rfl (calling.precedes.mono (by omega)) calling.noted calling.counted

theorem lands_interrupted (calling : v.Calling s past b deadline call)
    (frame : v.Frame now deeds s) (interrupt : v.terms.interrupt = true)
    (cancelled : s.isCancelled = true) :
    v.Lands now deeds s (.ended (s.world.note {} .abandoned) (.error .cancelled)) left := by
  have now := calling.cut interrupt cancelled
  have before : s.world.clock < min deadline.due call.timer.due := by
    simpa [Terms.cancelledBy, now, Terms.already_of_not_cancelledBy calling.allowed] using
      calling.precedes.1 cancelled
  have limit := calling.limit
  have finish := calling.finish
  have is := Terms.attempt_of_interrupted (k := past.length + 1) calling.served interrupt now
    (by omega) (by omega)
  have account := calling.linked.account calling.allowed is fun failed => by
    simp [Ending.isRetryable] at failed
  exact lands_of_account (w := s.world.note {} _) frame rfl rfl account
    (calling.noted.close .abandoned rfl rfl)

theorem lands_late (calling : v.Calling s past b deadline call) (frame : v.Frame now deeds s)
    (unanswered : ¬call.timer.due ≤ s.world.clock)
    (uninterrupted : ¬(v.terms.interrupt && s.isCancelled) = true)
    (late : deadline.due ≤ s.world.clock) :
    v.Lands now deeds s ((v.trial (.calling (past.length + 1) deadline call)).retry s.context
        (past.length + 1)
        (.timedOut v.terms.command (past.length + 1) v.terms.policy.attemptTimeout)
        (s.world.note {} .abandoned))
      (5 * (v.room - (past.length + 1)) + 2) := by
  have limit := calling.limit
  have finish := calling.finish
  have early := calling.early
  have waited (i : v.terms.interrupt = true) (c : Nat) (at_c : v.terms.cancelled = some c) :
      min (v.terms.finish (past.length + 1) b) (b + v.terms.limit) ≤ c := by
    have free : s.isCancelled = false := by simpa [i] using uninterrupted
    have := Terms.le_of_not_cancelledBy (frame.cancelledBy free) at_c
    omega
  have is := Terms.attempt_of_waited (k := past.length + 1) calling.served waited
  have now : b + v.terms.limit = s.world.clock := by omega
  rw [if_neg (by omega), now] at is
  exact lands_of_retry _ _ frame calling.linked calling.allowed is rfl rfl
    (show (s.world.note {} .abandoned).clock = _ from rfl) rfl rfl
    (calling.precedes.mono (by omega)) (calling.noted.close .abandoned rfl rfl)
    fun _ => calling.counted

theorem goesOn (calling : v.Calling s past b deadline call) (frame : v.Frame now deeds s)
    (stepped : s.step = some s') : v.GoesOn now deeds s s' := by
  have room : past.length < v.room := calling.linked.length_lt
  have rank : 5 * (v.room - (past.length + 1)) + 3 ≤ v.rank s := by
    simp only [Service.rank, calling.status, Service.trial]
    grind
  rw [SoloStep.step_of_trying calling.status, move_eq v frame] at stepped
  split at stepped
  next answered => exact (calling.lands_answered frame answered).goesOn stepped (by omega)
  next unanswered =>
    split at stepped
    next interrupted =>
      obtain ⟨interrupt, cancelled⟩ := Bool.and_eq_true_iff.mp interrupted
      exact (calling.lands_interrupted frame interrupt cancelled).goesOn stepped
        (show 0 < v.rank s by omega)
    next uninterrupted =>
      split at stepped
      next late =>
        exact (calling.lands_late frame unanswered uninterrupted late).goesOn stepped (by omega)
      next => cases stepped

end Calling

/-! ### A step that pauses -/

theorem Pausing.goesOn {a : Attempt} {timer : Timer} (pausing : v.Pausing s past a timer)
    (frame : v.Frame now deeds s) (stepped : s.step = some s') : v.GoesOn now deeds s s' := by
  have room : (past ++ [a]).length < v.room := pausing.linked.length_lt
  rw [List.length_append, List.length_singleton] at room
  have rank : 5 * (v.room - (past.length + 1)) + 1 ≤ v.rank s := by
    simp only [Service.rank, pausing.status, Service.trial]
    grind
  have moved : (v.trial (.pausing (past.length + 1) timer)).move s.context s.world =
      if s.isCancelled then .ended s.world (.error .cancelled)
      else if timer.due ≤ s.world.clock then
        .moved s.world (v.trial (.ready (past.length + 1)))
      else .blocked := by
    simp only [Trial.move, Service.trial, World.isDue, decide_eq_true_eq]
    rfl
  rw [SoloStep.step_of_trying pausing.status, moved] at stepped
  cases cancelled : s.isCancelled with
  | true =>
    rw [cancelled, if_pos rfl] at stepped
    have account := pausing.linked.account_of_cancelled (pausing.precedes.1 cancelled) (by simp)
      fun a' last => by
        obtain rfl : a = a' := by simpa using last
        exact pausing.cut cancelled
    exact (lands_of_account frame rfl rfl account pausing.noted).goesOn stepped
      (show 0 < v.rank s by omega)
  | false =>
    rw [cancelled, if_neg (by decide)] at stepped
    split at stepped
    next due =>
      have now : timer.due = s.world.clock := Nat.le_antisymm due pausing.early
      cases stepped
      have kept := kept_put (s := s) rfl (.trying (v.trial (.ready (past.length + 1))))
      have status' : (s.put s.world (.trying (v.trial (.ready (past.length + 1))))).status =
          .trying (v.trial (.ready (past ++ [a]).length)) := by simp [SoloStep.put]
      refine ⟨kept.frame rfl frame, .ready ⟨status', now ▸ pausing.linked,
        fun _ => kept.isCancelled ▸ cancelled, kept.precedes (now ▸ pausing.precedes),
        pausing.noted, by rw [List.length_append]; exact pausing.counted⟩, ?_⟩
      have : v.rank (s.put s.world (.trying (v.trial (.ready (past.length + 1))))) =
        5 * (v.room - (past.length + 1)) := rfl
      omega
    next => cases stepped

theorem Standing.goesOn (serves : v.Serves) (frame : v.Frame now deeds s) (standing : v.Standing s)
    (stepped : s.step = some s') : v.GoesOn now deeds s s' := by
  cases standing with
  | ready here => exact here.goesOn serves frame stepped
  | calling here => exact here.goesOn frame stepped
  | pausing here => exact here.goesOn frame stepped
  | through status => simp [SoloStep.step, status] at stepped

/-! ### Instants and deeds -/

/-- The step waits for an instant to come. -/
def Waits (s : SoloStep) : Prop :=
  s.hasHalted = false ∧ ∃ due, SoloStep.clockwork.nextDue s = some due ∧ s.world.clock < due

theorem nextDue_of_calling {n : Nat} {deadline : Timer}
    {call : Waiting (Except Cause (Option String))}
    (status : s.status = .trying (v.trial (.calling n deadline call))) :
    SoloStep.clockwork.nextDue s = some (min call.timer.due deadline.due) := by
  simp [SoloStep.clockwork, SoloStep.timers, status, Service.trial, Trial.timers, earliest?]

theorem nextDue_of_pausing {n : Nat} {timer : Timer}
    (status : s.status = .trying (v.trial (.pausing n timer))) :
    SoloStep.clockwork.nextDue s = some timer.due := by
  simp [SoloStep.clockwork, SoloStep.timers, status, Service.trial, Trial.timers, earliest?]

/-- A step that can do nothing now waits. -/
theorem Standing.waits (standing : v.Standing s) (rests : s.step = none)
    (unended : s.hasHalted = false) : Waits s := by
  refine ⟨unended, ?_⟩
  cases standing with
  | ready here =>
    have idle := SoloStep.idle_of_rests here.status rests
    simp [Service.trial, Trial.isWaiting] at idle
  | calling here =>
    have idle := (SoloStep.idle_of_rests here.status rests).2
    simp [Service.trial, Trial.isAwake, World.isDue] at idle
    exact ⟨_, nextDue_of_calling here.status, by omega⟩
  | pausing here =>
    have idle := (SoloStep.idle_of_rests here.status rests).2
    simp [Service.trial, Trial.isAwake, World.isDue] at idle
    exact ⟨_, nextDue_of_pausing here.status, idle.2⟩
  | through status => simp [SoloStep.hasHalted, status] at unended

/-- While it waits, the clock may go on. -/
theorem Standing.moveTo (frame : v.Frame now deeds s) (standing : v.Standing s)
    (unended : s.hasHalted = false) (rests : s.step = none) {t : Nat} (onward : s.world.clock ≤ t)
    (inTime : ∀ due, SoloStep.clockwork.nextDue s = some due → t ≤ due) :
    v.Standing (SoloStep.clockwork.moveTo t s) := by
  cases standing with
  | ready here =>
    have idle := SoloStep.idle_of_rests here.status rests
    simp [Service.trial, Trial.isWaiting] at idle
  | calling here =>
    have idle := (SoloStep.idle_of_rests here.status rests).2
    have le := inTime _ (nextDue_of_calling here.status)
    simp only [Service.trial, Trial.isAwake, Bool.or_eq_false_iff, Bool.and_eq_false_iff] at idle
    refine .calling { here with
      early := by rw [Nat.min_comm]; exact le
      cut := fun i cancelled => ?_ }
    rcases idle.1.2 with uninterrupted | free
    · rw [show s.context.interrupt = v.terms.interrupt from frame.interrupt, i] at uninterrupted
      cases uninterrupted
    · cases (show s.isCancelled = true from cancelled).symm.trans free
  | pausing here =>
    have idle := (SoloStep.idle_of_rests here.status rests).2
    simp only [Service.trial, Trial.isAwake, Bool.or_eq_false_iff] at idle
    refine .pausing { here with
      early := inTime _ (nextDue_of_pausing here.status)
      cut := fun cancelled => ?_
      behind := Nat.le_trans here.behind onward }
    cases (show s.isCancelled = true from cancelled).symm.trans idle.1
  | through status => simp [SoloStep.hasHalted, status] at unended

/-- An instant that the step has waited for brings it nearer to its end. -/
theorem Standing.rank_moveTo (standing : v.Standing s) (waits : Waits s) {t : Nat}
    (due : SoloStep.clockwork.nextDue s = some t) :
    v.rank (SoloStep.clockwork.moveTo t s) < v.rank s := by
  obtain ⟨unended, t', due', later⟩ := waits
  obtain rfl : t' = t := by simpa [due] using due'.symm
  cases standing with
  | ready here =>
    simp [SoloStep.clockwork, SoloStep.timers, here.status, Service.trial, Trial.timers,
      earliest?] at due
  | calling here =>
    obtain rfl := Option.some.inj ((nextDue_of_calling here.status).symm.trans due)
    simp only [rank, SoloStep.clockwork, here.status, Service.trial]
    grind
  | pausing here =>
    obtain rfl := Option.some.inj ((nextDue_of_pausing here.status).symm.trans due)
    simp only [rank, SoloStep.clockwork, here.status, Service.trial]
    grind
  | through status => simp [SoloStep.hasHalted, status] at unended

/-- The clock may go on until the next deed. -/
theorem Frame.moveTo (frame : v.Frame now deeds s) {t : Nat} (onward : s.world.clock ≤ t)
    (soon : ∀ wait deed rest, deeds = (wait, deed) :: rest → t ≤ now + wait) :
    v.Frame now deeds (SoloStep.clockwork.moveTo t s) := by
  refine ⟨frame.policy, frame.interrupt, frame.cancelled.imp_left ?_, frame.removed.imp_left ?_,
    Nat.le_trans frame.now_le onward, soon⟩
  · rintro ⟨cancelled, already | ⟨c, at_c, le⟩⟩
    · exact ⟨cancelled, .inl already⟩
    · exact ⟨cancelled, .inr ⟨c, at_c, Nat.le_trans le onward⟩⟩
  · rintro ⟨gone, r, at_r, le⟩
    exact ⟨gone, r, at_r, Nat.le_trans le onward⟩

variable {wait : Nat} {deed : SoloStep.Deed}

/-- A deed cancels the token or leaves it as it is. -/
theorem isCancelled_perform :
    (deed.perform s).isCancelled = (s.isCancelled || s.cancels deed) := by
  cases deed with
  | cancel token => exact CancelForest.isCancelled_cancel s.tokens token s.token
  | unregister name => exact (Bool.or_false _).symm

theorem cancels_perform : (deed.perform s).cancels = s.cancels := by
  cases deed with
  | cancel token =>
    funext other
    cases other with
    | cancel other =>
      show (CancelNodes.lineage (s.tokens.nodes.mark _) _).contains _ = _
      rw [CancelNodes.lineage_mark]
      rfl
    | unregister name => rfl
  | unregister name => rfl

theorem world_perform : (deed.perform s).world.clock = s.world.clock ∧
    (deed.perform s).world.counters = s.world.counters ∧
    SoloStep.callRecords (deed.perform s).world.history =
      SoloStep.callRecords s.world.history := by
  cases deed with
  | cancel token => exact ⟨rfl, rfl, rfl⟩
  | unregister name => exact SoloStep.quiet_noteRetired _ _

/-- A deed takes the plugin away or leaves it as it is. -/
theorem reach_perform : v.reach (deed.perform s) =
    if SoloStep.removes v.terms.binding.plugin deed then
      .error (.unknownPlugin v.terms.binding.plugin)
    else v.reach s := by
  cases deed with
  | cancel token => rfl
  | unregister name =>
    rw [Service.reach, show (SoloStep.Deed.perform (.unregister name) s).world.registry =
      (s.world.registry.unregister name).1 from World.registry_noteRetired _ _]
    exact Registry.reach_unregister _ _ _ _

/-- A deed that is done at its instant is no longer ahead. -/
theorem Frame.perform (frame : v.Frame now ((wait, deed) :: deeds) s)
    (here : s.world.clock = now + wait) : v.Frame (now + wait) deeds (deed.perform s) := by
  have clock : (deed.perform s).world.clock = s.world.clock := world_perform.1
  refine ⟨?_, ?_, ?_, ?_, by omega, fun wait' _ _ _ => by omega⟩
  · cases deed <;> exact frame.policy
  · cases deed <;> exact frame.interrupt
  · rw [isCancelled_perform, cancels_perform, clock]
    rcases frame.cancelled with ⟨cancelled, before⟩ | ⟨free, fresh, later⟩
    · exact .inl ⟨by simp [cancelled], before⟩
    · rw [SoloStep.firstAt] at later
      split at later
      next now => exact .inl ⟨by simp [now], .inr ⟨_, later, by omega⟩⟩
      next other => exact .inr ⟨by simp [free, other], fresh, later⟩
  · rw [reach_perform, clock]
    rcases frame.removed with ⟨gone, before⟩ | ⟨there, later⟩
    · exact .inl ⟨by simp [gone], before⟩
    · rw [SoloStep.firstAt] at later
      split at later
      next now => exact .inl ⟨by simp [now], _, later, by omega⟩
      next other => exact .inr ⟨by simp [there, other], later⟩

/-- Where a deed cancels the step, the terms tell this instant. -/
theorem Frame.cancelled_here (frame : v.Frame now ((wait, deed) :: deeds) s)
    (here : s.world.clock = now + wait) (free : s.isCancelled = false)
    (cancelled : (deed.perform s).isCancelled = true) :
    v.terms.cancelled = some s.world.clock := by
  rw [isCancelled_perform, free, Bool.false_or] at cancelled
  rcases frame.cancelled with ⟨before, -⟩ | ⟨-, -, later⟩
  · simp [free] at before
  · rw [later, SoloStep.firstAt, if_pos cancelled, here]

/-- All that has been done so far precedes what is still to come. -/
theorem Frame.precedes (frame : v.Frame now deeds s) {b : Nat} (later : s.world.clock < b) :
    v.Precedes s b := by
  refine ⟨fun cancelled => ?_, fun gone => ?_⟩
  · rcases frame.cancelled with ⟨-, already | ⟨c, at_c, le⟩⟩ | ⟨free, -⟩
    · simp [Terms.cancelledBy, already]
    · simp only [Terms.cancelledBy, at_c, Option.any_some, Bool.or_eq_true, decide_eq_true_eq]
      exact .inr (by omega)
    · simp [free] at cancelled
  · rcases frame.removed with ⟨-, r, at_r, le⟩ | ⟨there, -⟩
    · simp only [Terms.removedBy, at_r, Option.any_some, decide_eq_true_eq]
      omega
    · exact absurd there gone

/-- A deed finds the step waiting, and leaves it so. -/
theorem Standing.perform (frame : v.Frame now ((wait, deed) :: deeds) s) (standing : v.Standing s)
    (waits : Waits s) (at_wait : s.world.clock = now + wait) :
    v.Standing (deed.perform s) ∧ Waits (deed.perform s) := by
  obtain ⟨clock, counters, records⟩ := @world_perform s deed
  have frame' := frame.perform at_wait
  have status' : (deed.perform s).status = s.status := by cases deed <;> rfl
  obtain ⟨unended, due, next, later⟩ := waits
  have waits' : Waits (deed.perform s) := by
    refine ⟨?_, due, ?_, clock ▸ later⟩
    · rw [SoloStep.hasHalted, status']
      exact unended
    · rw [← next]
      simp only [SoloStep.clockwork, SoloStep.timers, status']
  refine ⟨?_, waits'⟩
  have noted_perform {past : List Attempt} {open' : List Record}
      (noted : v.Noted past open' s.world) : v.Noted past open' (deed.perform s).world := by
    rw [Noted, records]
    exact noted
  have counted_perform {calls : Nat} (counted : v.Counted calls s.world) :
      v.Counted calls (deed.perform s).world := by
    rw [Counted, counters]
    exact counted
  cases standing with
  | ready here =>
    simp [SoloStep.clockwork, SoloStep.timers, here.status, Service.trial, Trial.timers,
      earliest?] at next
  | calling here =>
    obtain rfl := Option.some.inj ((nextDue_of_calling here.status).symm.trans next)
    refine .calling { here with
      status := status'.trans here.status
      early := clock ▸ here.early
      precedes := frame'.precedes (by rw [clock]; omega)
      cut := fun i cancelled => ?_
      noted := noted_perform here.noted
      counted := counted_perform here.counted }
    rw [clock]
    cases free : s.isCancelled with
    | true => exact here.cut i free
    | false => exact frame.cancelled_here at_wait free cancelled
  | pausing here =>
    obtain rfl := Option.some.inj ((nextDue_of_pausing here.status).symm.trans next)
    refine .pausing { here with
      status := status'.trans here.status
      early := clock ▸ here.early
      precedes := frame'.precedes (by rw [clock]; exact later)
      cut := fun cancelled => ?_
      behind := clock ▸ here.behind
      noted := noted_perform here.noted
      counted := counted_perform here.counted }
    rw [clock]
    cases free : s.isCancelled with
    | true => exact here.cut free
    | false =>
      have behind := here.behind
      exact ⟨_, frame.cancelled_here at_wait free cancelled, by omega⟩
  | through status => simp [SoloStep.hasHalted, status] at unended

/-! ### Runs -/

theorem clock_of_step (stepped : s.step = some s') : s'.world.clock = s.world.clock := by
  cases status : s.status with
  | trying trial =>
    rw [SoloStep.step_of_trying status] at stepped
    have still := Trial.move_atOnce (c := s.context) (w := s.world) trial
    cases turn : trial.move s.context s.world with
    | blocked => simp [turn, SoloStep.take] at stepped
    | moved w t | ended w t | crashed w t held =>
      rw [turn] at still stepped
      cases stepped
      exact still.1
  | _ => simp [SoloStep.step, status] at stepped

theorem rank_lt_patience (fits : v.terms.policy.maxAttempts < 2 ^ 32) (s : SoloStep) :
    v.rank s < Clockwork.patience := by
  have room : v.room ≤ 2 ^ 32 := by
    simp only [room]
    omega
  have bound : 5 * v.room + 4 < Clockwork.patience := by
    simp only [Clockwork.patience]
    omega
  refine Nat.lt_of_le_of_lt ?_ bound
  unfold rank
  split
  · split
    · omega
    · split <;> omega
    · split <;> omega
  · omega

end Service

namespace Clockwork

variable {σ : Type} {m : Clockwork σ} {P : σ → Prop} {s : σ}

/-- A system that can make no step stays as it is. -/
theorem settleWithin_of_rests (rests : m.step s = none) (fuel : Nat) :
    m.settleWithin fuel s = s := by
  cases fuel with
  | zero => rfl
  | succ fuel => rw [settleWithin, rests]

theorem settleWithin_settles (measure : σ → Nat)
    (step : ∀ s s', P s → m.step s = some s' → P s' ∧ measure s' < measure s) {fuel : Nat}
    (h : P s) (enough : measure s < fuel) :
    P (m.settleWithin fuel s) ∧ m.step (m.settleWithin fuel s) = none := by
  induction fuel generalizing s with
  | zero => omega
  | succ fuel ih =>
    rw [settleWithin]
    cases stepped : m.step s with
    | some s' =>
      obtain ⟨h', less⟩ := step s s' h stepped
      exact ih h' (by omega)
    | none => exact ⟨h, stepped⟩

/-- With fuel for all its steps and instants, a system runs until it halts or nothing is due before
the limit. -/
theorem runWithin_settles (measure : σ → Nat) (halted : σ → Bool) (limit : Option Nat)
    (step : ∀ s s', P s → m.step s = some s' → P s' ∧ measure s' < measure s)
    (moveTo : ∀ s t, P s → m.step s = none → halted s = false → m.nextDue s = some t →
      isBefore limit t = true → P (m.moveTo t s) ∧ measure (m.moveTo t s) < measure s)
    {fuel : Nat} (h : P s) (enough : measure s < fuel) :
    P (m.runWithin halted limit fuel s) ∧ m.step (m.runWithin halted limit fuel s) = none ∧
      (halted (m.runWithin halted limit fuel s) = true ∨
        ∀ t, m.nextDue (m.runWithin halted limit fuel s) = some t → isBefore limit t = false) := by
  induction fuel generalizing s with
  | zero => omega
  | succ fuel ih =>
    rw [runWithin]
    cases stepped : m.step s with
    | some s' =>
      obtain ⟨h', less⟩ := step s s' h stepped
      exact ih h' (by omega)
    | none =>
      cases ended : halted s with
      | true => exact ⟨h, stepped, .inl ended⟩
      | false =>
        cases due : m.nextDue s with
        | none => exact ⟨h, stepped, .inr (by simp [due])⟩
        | some t =>
          cases inTime : isBefore limit t with
          | false => simpa [inTime, due] using ⟨h, stepped⟩
          | true =>
            obtain ⟨h', less⟩ := moveTo s t h stepped ended due inTime
            simpa [inTime] using ih h' (by omega)

end Clockwork

namespace Service

variable {v : Service} {s : SoloStep} {now : Nat} {deeds : List (Nat × SoloStep.Deed)}

/-- A step does what it can do now, and then waits or is over. -/
theorem Standing.turn (serves : v.Serves) (fits : v.terms.policy.maxAttempts < 2 ^ 32)
    (frame : v.Frame now deeds s) (standing : v.Standing s) :
    v.Frame now deeds s.turn ∧ v.Standing s.turn ∧ s.turn.world.clock = s.world.clock ∧
      (s.turn.hasHalted = false → Waits s.turn) := by
  obtain ⟨⟨frame', standing', clock⟩, rests⟩ := Clockwork.settleWithin_settles
    (m := SoloStep.clockwork)
    (P := fun s' => v.Frame now deeds s' ∧ v.Standing s' ∧ s'.world.clock = s.world.clock)
    v.rank (fun s₁ s₂ ⟨frame, standing, clock⟩ stepped => by
      obtain ⟨frame', standing', less⟩ := standing.goesOn serves frame stepped
      exact ⟨⟨frame', standing', (clock_of_step stepped).trans clock⟩, less⟩)
    ⟨frame, standing, rfl⟩ (rank_lt_patience fits s)
  exact ⟨frame', standing', clock, standing'.waits rests⟩

/-- Up to the next deed a step runs until it is over or waits for what comes later. -/
theorem Standing.run (serves : v.Serves) (fits : v.terms.policy.maxAttempts < 2 ^ 32)
    (frame : v.Frame now deeds s) (standing : v.Standing s) (limit : Option Nat)
    (soon : ∀ wait deed rest, deeds = (wait, deed) :: rest → limit = some (now + wait)) :
    let s' := SoloStep.clockwork.run SoloStep.hasHalted limit s
    v.Frame now deeds s' ∧ v.Standing s' ∧ s'.step = none ∧ (s'.hasHalted = true ∨
      ∀ t, SoloStep.clockwork.nextDue s' = some t → Clockwork.isBefore limit t = false) := by
  obtain ⟨⟨frame', standing'⟩, rests, ends⟩ := Clockwork.runWithin_settles
    (m := SoloStep.clockwork) (P := fun s' => v.Frame now deeds s' ∧ v.Standing s')
    v.rank SoloStep.hasHalted limit (fun s₁ s₂ ⟨frame, standing⟩ stepped => by
      obtain ⟨frame', standing', less⟩ := standing.goesOn serves frame stepped
      exact ⟨⟨frame', standing'⟩, less⟩)
    (fun s₁ t ⟨frame, standing⟩ rests unended due inTime => by
      have waits := standing.waits rests unended
      have later : s₁.world.clock < t := by
        obtain ⟨-, t', due', later⟩ := waits
        obtain rfl : t' = t := by simpa [due] using due'.symm
        exact later
      refine ⟨⟨frame.moveTo (by omega) fun wait deed rest same => ?_,
        standing.moveTo frame unended rests (by omega) fun due' is => ?_⟩,
        standing.rank_moveTo waits due⟩
      · simp only [soon wait deed rest same, Clockwork.isBefore, decide_eq_true_eq] at inTime
        omega
      · simp [due] at is
        omega)
    ⟨frame, standing⟩ (rank_lt_patience fits s)
  exact ⟨frame', standing', rests, ends⟩

/-- Whatever is done beside it, a step that waits comes to its end. -/
theorem Standing.runBeside (serves : v.Serves) (fits : v.terms.policy.maxAttempts < 2 ^ 32)
    (frame : v.Frame now deeds s) (standing : v.Standing s) (waits : Waits s)
    (here : s.world.clock = now) :
    let s' := SoloStep.clockwork.runBeside SoloStep.turn SoloStep.hasHalted now
      (SoloStep.performed deeds) s
    s'.hasHalted = true ∧ v.Standing s' := by
  induction deeds generalizing now s with
  | nil =>
    obtain ⟨-, standing', rests, ends⟩ := standing.run serves fits frame none (by simp)
    refine ⟨?_, standing'⟩
    show (SoloStep.clockwork.run SoloStep.hasHalted none s).hasHalted = true
    rcases ends with ended | never
    · exact ended
    · cases ended : (SoloStep.clockwork.run SoloStep.hasHalted none s).hasHalted with
      | true => rfl
      | false =>
        obtain ⟨-, t, due, -⟩ := standing'.waits rests ended
        simpa [Clockwork.isBefore] using never t due
  | cons head rest ih =>
    obtain ⟨wait, deed⟩ := head
    simp only [SoloStep.performed, List.map_cons, Clockwork.runBeside]
    split
    next atOnce =>
      subst atOnce
      obtain ⟨standing', waits'⟩ := standing.perform frame waits here
      exact ih (frame.perform here) standing' waits' (world_perform.1.trans here)
    next later =>
      obtain ⟨frame₁, standing₁, rests, ends⟩ := standing.run serves fits frame (some (now + wait))
        (by rintro _ _ _ ⟨⟩; rfl)
      generalize SoloStep.clockwork.run SoloStep.hasHalted (some (now + wait)) s = s₁ at *
      split
      next ended => exact ⟨ended, standing₁⟩
      next unended =>
        have unended : s₁.hasHalted = false := by simpa using unended
        have onward : s₁.world.clock ≤ now + wait := frame₁.soon _ _ _ rfl
        have moved := standing₁.moveTo frame₁ unended rests onward fun t due => by
          simpa [Clockwork.isBefore] using (ends.resolve_left (by simp [unended])) t due
        obtain ⟨frame₂, standing₂, clock, waits₂⟩ := moved.turn serves fits
          (frame₁.moveTo onward fun _ _ _ same => by cases same; omega)
        split
        next ended => exact ⟨ended, standing₂⟩
        next unended =>
          obtain ⟨standing₃, waits₃⟩ := standing₂.perform frame₂ (waits₂ (by simpa using unended))
            clock
          exact ih (frame₂.perform clock) standing₃ waits₃ (world_perform.1.trans clock)

end Service

namespace SoloStep

/-- The terms of a step that is about to begin, beside deeds from outside. -/
def terms (s : SoloStep) (command : String) (params : StepParams) (binding : Binding)
    (registration : Registration) (counter : String) (calls : Nat → Conduct)
    (deeds : List (Nat × Deed)) : Terms where
  policy := s.engine.policy
  command := command
  params := params
  binding := binding
  builtin := registration.plugin.builtin
  calls k := calls ((OrderedMap.get? counter s.world.counters).getD 0 + k)
  interrupt := s.interrupt
  start := s.world.clock
  already := s.isCancelled
  cancelled := firstAt s.cancels s.world.clock deeds
  removed := firstAt (removes binding.plugin) s.world.clock deeds

theorem run_standing {v : Service} {s : SoloStep} {deeds : List (Nat × Deed)}
    (serves : v.Serves) (fits : v.terms.policy.maxAttempts < 2 ^ 32)
    (frame : v.Frame s.world.clock deeds s) (standing : v.Standing s) :
    (s.run (performed deeds)).hasHalted = true ∧ v.Standing (s.run (performed deeds)) := by
  obtain ⟨frame', standing', clock, waits⟩ := standing.turn serves fits frame
  simp only [run]
  split
  next ended => exact ⟨ended, standing'⟩
  next unended =>
    exact standing'.runBeside serves fits frame' (waits (by simpa using unended)) clock

/-- A step without a provider is over before its first turn. -/
theorem run_of_over {s : SoloStep} {result : StepResult} (ended : s.status = .over result)
    (beside : List (Nat × (SoloStep → SoloStep))) : s.run beside = s := by
  have rests : s.step = none := by simp [step, ended]
  have still : s.turn = s := Clockwork.settleWithin_of_rests (m := clockwork) rests _
  rw [run, still]
  simp [hasHalted, ended]

/-- The retry loop. Nothing is called for a command that nobody provides. Any other step comes to
its end, whatever its policy, its calls and what is done from outside meanwhile, and keeps to its
account: its attempts follow each other as the terms tell, each ends in time, its result is the one
that the last of them leads to, an error tells as many attempts as there have been calls, and
nothing else is called. -/
theorem run_tells_its_account (s : SoloStep) (deeds : List (Nat × Deed)) (command : String)
    (params : StepParams) (begun : s.status = SoloStep.begin s.world command params)
    (fits : s.engine.policy.maxAttempts < 2 ^ 32) :
    (s.world.registry.resolve command = none →
      s.run (performed deeds) = s ∧ s.status = .over (.error (.unresolved command))) ∧
    ∀ binding registration counter calls, s.world.registry.resolve command = some binding →
      s.world.registry.reach binding.plugin binding.method = .ok registration →
      registration.plugin.Follows binding.method params counter calls →
      let t := s.terms command params binding registration counter calls deeds
      let s' := s.run (performed deeds)
      ∃ attempts result, s'.status = .over result ∧
        t.Account attempts result s'.world.clock ∧
        callRecords s'.world.history =
          (attempts.flatMap t.records).reverse ++ callRecords s.world.history ∧
        (∀ a ∈ attempts, a.ended ≤ a.began + t.limit) ∧
        ∀ e n, result = .error e → e.attempts? = some n →
          callsIn (attempts.flatMap t.records) = n := by
  refine ⟨fun unknown => ?_, fun binding registration counter calls resolved reached follows => ?_⟩
  · have ended : s.status = .over (.error (.unresolved command)) := by
      rw [begun, SoloStep.begin, unknown]
    exact ⟨run_of_over ended _, ended⟩
  · let v : Service := {
      terms := s.terms command params binding registration counter calls deeds
      registration, counter, calls
      used := (OrderedMap.get? counter s.world.counters).getD 0
      before := callRecords s.world.history }
    have status : s.status = .trying (v.trial (.ready ([] : List Attempt).length)) := by
      rw [begun, SoloStep.begin, resolved]
      rfl
    have frame : v.Frame s.world.clock deeds s := by
      refine ⟨rfl, rfl, ?_, .inr ⟨reached, rfl⟩, Nat.le_refl _, fun _ _ _ _ => Nat.le_add_right ..⟩
      cases cancelled : s.isCancelled with
      | true => exact .inl ⟨rfl, .inl cancelled⟩
      | false => exact .inr ⟨rfl, cancelled, rfl⟩
    have precedes : v.Precedes s s.world.clock :=
      ⟨fun cancelled => by simp [v, terms, Terms.cancelledBy, cancelled], fun gone =>
        absurd reached gone⟩
    have standing : v.Standing s :=
      .ready ⟨status, Terms.linked_start, fun some => absurd rfl some, precedes,
        by simp [Service.Noted, v], by simp [Service.Counted, v]⟩
    obtain ⟨ended, standing'⟩ := run_standing (v := v) ⟨rfl, follows, fun _ => rfl⟩ fits frame
      standing
    cases standing' with
    | ready here | calling here | pausing here => simp [hasHalted, here.status] at ended
    | @through attempts result status account noted =>
      refine ⟨attempts, result, status, account, by simpa [Service.Noted] using noted,
        fun a mem => account.ended_le mem, fun e n failed tells => account.callsIn_eq failed tells⟩

/-! ### A call that is not waited for -/

namespace Rehearsal

/-- The first call would take a minute. -/
def script : PluginScript where
  key := "0"
  commands := [⟨"sh", "run", [{ time := 60000 }, { reply := .fail (.because "boom") }]⟩]

def start : SoloStep where
  engine := ⟨.standard, {
    pull := fun _ => .done (.ok ())
    start := fun image => .done (.ok image)
    exec := fun _ _ => .done (.ok .finished)
    stop := fun _ => .done (.ok ()) }⟩
  world := { registry := (Registry.empty.register "fake" script.plugin).1 }
  tokens := CancelForest.empty.apply .new
  token := 0
  interrupt := true
  status := .trying { command := "sh", params := [], binding := ⟨"sh", "fake", "run"⟩ }

/-- After a second the step is cancelled, and after another one its plugin is taken away. -/
def deeds : List (Nat × Deed) := [(1000, .cancel 0), (1000, .unregister "fake")]

def calls : Nat → Conduct
  | 0 | 1 => ⟨60000, .ok (some "")⟩
  | _ + 2 => ⟨0, .error (.because "boom")⟩

theorem follows : script.plugin.Follows "run" [] "0 run" calls := by
  have behaviors : script.behaviors "run" =
      [{ time := 60000 }, { reply := .fail (.because "boom") }] := by
    simp [PluginScript.behaviors, script]
  refine congrArg (Work.count "0 run") (funext fun n => ?_)
  show PluginScript.perform (PluginScript.nth (script.behaviors "run") n) n [] = _
  rw [behaviors]
  match n with
  | 0 | 1 | 2 | n + 3 => rfl

theorem call_is_abandoned :
    (start.run (performed deeds)).status = .over (.error .cancelled) ∧
      (start.run (performed deeds)).world.clock = 1000 := by
  obtain ⟨-, runs⟩ := run_tells_its_account start deeds "sh" [] rfl (by decide)
  obtain ⟨attempts, result, status, account, -⟩ := runs ⟨"sh", "fake", "run"⟩
    ⟨"fake", 0, script.plugin⟩ "0 run" calls (by decide +kernel) rfl follows
  have first : attempts[0]? = some ⟨0, 1000, .interrupted⟩ := account.first
  have second : attempts[1]? = none := account.next 0 _ first
  have one : attempts = [⟨0, 1000, .interrupted⟩] := by
    match attempts, first, second with
    | [_], first, _ => simpa using first
  have outcome := account.outcome
  rw [one] at outcome
  obtain ⟨rfl, ended⟩ := outcome
  exact ⟨status, ended⟩

end Rehearsal

end SoloStep
end PipelineRunner
