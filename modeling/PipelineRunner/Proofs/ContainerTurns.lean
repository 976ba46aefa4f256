import PipelineRunner.Proofs.BranchCancellation
import PipelineRunner.Proofs.Breakdowns

/-! What turns tell of containers. The orders to the runtime are given in turns of own steps, in the
order in which a container is opened, and all that is told of containers befits the agent of the
stage: no turn begins anything else with a container, not even one that breaks down. -/

namespace PipelineRunner

/-! ### Events of containers -/

/-- Whether an event tells of a container. -/
def Event.isOfContainer : Event → Bool
  | .pull _ | .pulled _ | .start _ | .started .. | .stop _ | .stopped _ => true
  | _ => false

/-- Whether an event is an order to the runtime, of which something is still to come. -/
def Event.isOrder : Event → Bool
  | .pull _ | .start _ | .stop _ => true
  | _ => false

/-- The image that an event tells of. -/
def Event.image? : Event → Option String
  | .pull image | .pulled image | .start image | .started image _ => some image
  | _ => none

theorem isOwn_of_container {event : Event} (h : event.isOfContainer = true) :
    event.isOwn = true := by
  cases event <;> first | rfl | cases h

/-- These events tell of containers only as this agent wants them. -/
def Befit (agent : Agent) (events : List Event) : Prop :=
  ∀ event ∈ events, event.isOfContainer = true →
    ∃ image, agent.image? = some image ∧
      ∀ named, event.image? = some named → named = Image.normalize image

section Befit

variable {agent : Agent} {stage : Stage} {workflow : String} {container : Option String}
  {events more : List Event} {own : OwnSteps} {image id : String} {b : Bool}

theorem Befit.append (h : Befit agent events) (h' : Befit agent more) :
    Befit agent (events ++ more) := by
  intro event mem of_container
  rcases List.mem_append.mp mem with mem | mem
  · exact h event mem of_container
  · exact h' event mem of_container

theorem befit_apart (h : ∀ event ∈ events, event.isOfContainer = false) : Befit agent events := by
  intro event mem of_container
  rw [h event mem] at of_container
  cases of_container

theorem befit_docker (docker : agent.image? = some image)
    (named : ∀ event ∈ events, ∀ name, event.image? = some name → name = Image.normalize image) :
    Befit agent events :=
  fun event mem _ => ⟨image, docker, named event mem⟩

theorem Opened.befit (open_ : Opened agent container events) : Befit agent events := by
  cases open_ with
  | host bare => exact befit_apart (by simp)
  | container docker id => exact befit_docker docker (by simp [opening, Event.image?])

/-- Where a container has been opened, it may be stopped as well. -/
theorem Opened.befit_stop (open_ : Opened agent (some id) events)
    (stops : ∀ event ∈ more, event.image? = none) : Befit agent more := by
  cases open_ with
  | container docker id =>
    refine befit_docker docker fun event mem name named => ?_
    rw [stops event mem] at named
    cases named

theorem Calls.uncontained (called : Calls stage workflow container b events) :
    ∀ event ∈ events, event.isOfContainer = false := by
  induction called with
  | nothing => simp
  | called calls mem plugin method builtin ih | answered calls answer ih | abandoned calls ih =>
    simpa [or_imp, forall_and, Event.isOfContainer] using ih

theorem Calls.befit (called : Calls stage workflow container b events) : Befit agent events :=
  befit_apart called.uncontained

theorem Custody.befit (custody : Custody stage agent workflow own events) : Befit agent events := by
  cases custody with
  | entering => exact befit_apart (by simp)
  | pulling docker wait | pulled docker | starting docker wait =>
    exact befit_docker docker (by simp [Event.image?])
  | between open_ called | trying open_ called | leaving open_ called =>
    exact open_.befit.append called.befit
  | stopping open_ called wait =>
    exact (open_.befit.append called.befit).append (open_.befit_stop (by simp [Event.image?]))

theorem Closed.befit (closed : Closed stage agent workflow events) : Befit agent events := by
  cases closed with
  | untouched => exact befit_apart (by simp)
  | unpulled docker | unstarted docker => exact befit_docker docker (by simp [Event.image?])
  | host bare called => exact called.befit
  | stopped open_ called =>
    exact (open_.befit.append called.befit).append (open_.befit_stop (by simp [Event.image?]))

theorem StageRun.Receipts.befit (received : StageRun.Receipts events) : Befit agent events := by
  refine befit_apart fun event mem => ?_
  obtain ⟨i, failed, rfl⟩ := received event mem
  rfl

theorem StageRun.Traced.befit {run : StageRun} (traced : run.Traced stage agent workflow events) :
    Befit agent events := by
  cases run with
  | fresh =>
    obtain rfl : events = [] := traced
    exact befit_apart (by simp)
  | joining => exact StageRun.Receipts.befit traced
  | working =>
    obtain ⟨receipts, noted, rfl, received, custody⟩ := traced
    exact received.befit.append custody.befit
  | settled =>
    obtain ⟨receipts, noted, rfl, received, closed⟩ := traced
    exact received.befit.append closed.befit
  | received => exact traced.elim

/-- Before steps are called in a container, the image that has come for it is started from. -/
theorem Opened.start_of_pulled (open_ : Opened agent container events)
    (called : Calls stage workflow container b more) (came : .pulled image ∈ events ++ more) :
    ∃ image, .start image ∈ events := by
  cases open_ with
  | host bare => simpa [Event.isOfContainer] using called.uncontained _ came
  | @container image docker id => exact ⟨Image.normalize image, by simp [opening]⟩

/-- Where an image has come and no container has been started from it, the steps are about to start
one. -/
theorem StageRun.Traced.pulled {run : StageRun} (traced : run.Traced stage agent workflow events)
    (came : .pulled image ∈ events) (unstarted : ∀ image, .start image ∉ events) :
    ∃ worker around branches image, run = .working worker around branches (.pulled image) := by
  have opened {container : Option String} {b : Bool} {opened calls : List Event}
      (open_ : Opened agent container opened) (called : Calls stage workflow container b calls)
      (came : .pulled image ∈ opened ++ calls) (within : ∀ event ∈ opened, event ∈ events) :
      False := by
    obtain ⟨image, start⟩ := open_.start_of_pulled called came
    exact unstarted image (within _ start)
  cases run with
  | fresh =>
    obtain rfl : events = [] := traced
    cases came
  | joining => exact absurd came (Receipts.absent traced (by simp))
  | working worker around branches own =>
    obtain ⟨receipts, noted, rfl, received, custody⟩ := traced
    have came := (List.mem_append.mp came).resolve_left (received.absent (by simp))
    cases custody with
    | pulled docker => exact ⟨worker, around, branches, _, rfl⟩
    | entering | pulling => simp at came
    | @starting image docker wait => exact absurd (by simp) (unstarted (Image.normalize image))
    | between open_ called | trying open_ called | leaving open_ called =>
      exact (opened open_ called came fun event mem => by simp [mem]).elim
    | stopping open_ called wait =>
      exact (opened open_ called (by simpa using came) fun event mem => by simp [mem]).elim
  | settled =>
    obtain ⟨receipts, noted, rfl, received, closed⟩ := traced
    have came := (List.mem_append.mp came).resolve_left (received.absent (by simp))
    cases closed with
    | untouched | unpulled => simp at came
    | @unstarted image docker => exact absurd (by simp) (unstarted (Image.normalize image))
    | host bare called =>
      exact (opened (.host bare) called came fun event mem => by cases mem).elim
    | stopped open_ called =>
      exact (opened open_ called (by simpa using came) fun event mem => by simp [mem]).elim
  | received => exact traced.elim

end Befit

/-! ### Turns of own steps -/

/-- The world that a turn leaves, if there is one: also where it breaks down. -/
def Turn.left? {σ α : Type} : Turn σ α → Option World
  | .blocked => none
  | .moved w _ | .ended w _ | .crashed w _ _ => some w

namespace Trial

variable {c : Context} {t t' : Trial} {events : List Event} {attempt : Nat} {result : StepResult}

theorem Asks.uncontained (asks : t.Asks c attempt events) :
    ∀ event ∈ events, event.isOfContainer = false := by
  cases asks <;> simp [Event.isOfContainer]

theorem Goes.uncontained (goes : t.Goes c events t') :
    ∀ event ∈ events, event.isOfContainer = false := by
  cases goes with
  | waits asks => exact asks.uncontained
  | pauses asks =>
    exact List.forall_mem_append.mpr ⟨asks.uncontained, by simp [Event.isOfContainer]⟩
  | expires | resumes => simp [Event.isOfContainer]

theorem Ends.uncontained (ends : t.Ends c events result) :
    ∀ event ∈ events, event.isOfContainer = false := by
  cases ends with
  | succeeds asks | fails asks =>
    exact List.forall_mem_append.mpr ⟨asks.uncontained, by simp [Event.isOfContainer]⟩
  | _ => simp [Event.isOfContainer]

end Trial

namespace OwnSteps

/-- The turns in which the steps of a stage break down. -/
inductive Crashes (c : Context) (agent : Agent) : OwnSteps → List Event → Prop where
  | fetching {own : OwnSteps} {image : String} {events : List Event}
      (fetches : Fetches c agent own image events) : Crashes c agent own events
  | starting {own : OwnSteps} {image : String} {events : List Event}
      (starts : Starts own image events) : Crashes c agent own events
  | calling {container : Option String} {trial : Trial} {todo : List Step} {outputs : List String}
      {attempt : Nat} {events : List Event} (asks : trial.Asks c attempt events) :
      Crashes c agent (trying container trial todo outputs) events
  | stopping {own : OwnSteps} {id : String} {result : StepsResult} {events : List Event}
      (stops : Stops own id result events) : Crashes c agent own events

/-- What is noted in a turn of the steps of a stage, whatever becomes of them. -/
inductive Tells (c : Context) (stage : Stage) (agent : Agent) (own : OwnSteps) :
    List Event → Prop where
  | goes {events : List Event} {own' : OwnSteps} (goes : own.Goes c stage agent events own') :
      Tells c stage agent own events
  | ends {events : List Event} {result : StepsResult} (ends : own.Ends c agent events result) :
      Tells c stage agent own events
  | crashes {events : List Event} (crashes : own.Crashes c agent events) :
      Tells c stage agent own events

variable {c : Context} {stage : Stage} {agent : Agent} {own : OwnSteps} {w w' : World}
  {noted events : List Event} {event : Event} {image reason : String} {names : List String}

theorem move_crashes (h : own.move c stage agent w = .crashed w' reason names) :
    ∃ events, w.Notes c.place events w' ∧ own.Crashes c agent events := by
  cases own with
  | entering =>
    simp only [move] at h
    split at h
    · cases h
    next image docker =>
      split at h
      · cases h
      next free =>
        obtain ⟨-, rfl⟩ := followPull_crashed h
        exact ⟨_, World.notes_begun rfl _, .fetching (.now docker (by simpa using free))⟩
  | pulling image wait =>
    simp only [move] at h
    split at h
    · obtain ⟨-, rfl⟩ := followPull_crashed h
      exact ⟨_, World.notes_perform _ _, .fetching .before⟩
    · cases h
  | pulled image =>
    obtain ⟨-, rfl⟩ := followStart_crashed h
    exact ⟨_, World.notes_begun rfl _, .starting .now⟩
  | starting image wait =>
    simp only [move] at h
    split at h
    · obtain ⟨-, rfl⟩ := followStart_crashed h
      exact ⟨_, World.notes_perform _ _, .starting .before⟩
    · cases h
  | between container todo outputs =>
    cases todo with
    | nil => cases h
    | cons step todo =>
      simp only [move, beginStep] at h
      split at h
      · cases h
      · split at h <;> cases h
  | trying container trial todo outputs =>
    simp only [move] at h
    cases turn : trial.move c w with
    | crashed w₁ why inner =>
      simp only [turn, followTrial] at h
      cases h
      obtain ⟨-, attempt, events, noted, asks⟩ := Trial.move_crashed turn
      exact ⟨events, noted, .calling asks⟩
    | ended w₁ answer => cases answer <;> simp [turn, followTrial] at h
    | _ => simp [turn, followTrial] at h
  | leaving container result =>
    cases container with
    | none => cases h
    | some id =>
      obtain ⟨-, rfl⟩ := followStop_crashed h
      exact ⟨_, World.notes_begun rfl _, .stopping .now⟩
  | stopping id wait result =>
    simp only [move] at h
    split at h
    · obtain ⟨-, rfl⟩ := followStop_crashed h
      exact ⟨_, World.notes_perform _ _, .stopping .before⟩
    · cases h

theorem tells_of_move (h : (own.move c stage agent w).left? = some w') :
    ∃ events, w.Notes c.place events w' ∧ own.Tells c stage agent events := by
  cases turn : own.move c stage agent w with
  | blocked => simp [turn, Turn.left?] at h
  | moved w₁ own' =>
    obtain rfl : w₁ = w' := by simpa [turn, Turn.left?] using h
    obtain ⟨events, notes, goes⟩ := move_moved turn
    exact ⟨events, notes, .goes goes⟩
  | ended w₁ result =>
    obtain rfl : w₁ = w' := by simpa [turn, Turn.left?] using h
    obtain ⟨events, notes, ends⟩ := move_ended turn
    exact ⟨events, notes, .ends ends⟩
  | crashed w₁ reason names =>
    obtain rfl : w₁ = w' := by simpa [turn, Turn.left?] using h
    obtain ⟨events, notes, crashes⟩ := move_crashes turn
    exact ⟨events, notes, .crashes crashes⟩

/-- A container that is broken down with is one that the agent wants. -/
theorem Crashes.befit (crashes : own.Crashes c agent events)
    (custody : Custody stage agent c.place.workflow own noted) : Befit agent (noted ++ events) := by
  cases crashes with
  | fetching fetches =>
    obtain ⟨docker, so⟩ := custody.fetches fetches
    rw [so]
    exact befit_docker docker (by simp [Event.image?])
  | starting starts =>
    obtain ⟨docker, so⟩ := custody.starts starts
    rw [so]
    exact befit_docker docker (by simp [Event.image?])
  | calling asks => exact custody.befit.append (befit_apart asks.uncontained)
  | stopping stops =>
    obtain ⟨opened, calls, open_, called, so⟩ := custody.stops stops
    rw [so]
    exact (open_.befit.append called.befit).append (open_.befit_stop (by simp [Event.image?]))

/-- So are all of which a turn of the steps tells. -/
theorem Tells.befit (tells : own.Tells c stage agent events) (sound : own.Sound c stage agent)
    (custody : Custody stage agent c.place.workflow own noted) : Befit agent events := by
  have whole : Befit agent (noted ++ events) := by
    cases tells with
    | goes goes => exact (custody.goes goes sound).befit
    | ends ends => exact (custody.ends ends).befit
    | crashes crashes => exact crashes.befit custody
  exact fun event mem => whole event (List.mem_append_right _ mem)

/-- Orders to the runtime are given where an image is fetched, or a container started or stopped. -/
theorem Tells.ordered (tells : own.Tells c stage agent events) (mem : event ∈ events)
    (order : event.isOrder = true) :
    (∃ image noted, own.Fetches c agent image noted ∧ event ∈ noted) ∨
      (∃ image noted, own.Starts image noted ∧ event ∈ noted) ∨
      ∃ id result noted, own.Stops id result noted ∧ event ∈ noted := by
  have before {noted : List Event} {last : Event} (mem : event ∈ noted ++ [last])
      (done : last.isOrder = false) : event ∈ noted := by
    refine (List.mem_append.mp mem).resolve_right fun now => ?_
    rw [List.mem_singleton.mp now, done] at order
    cases order
  have apart {noted : List Event} (uncontained : ∀ event ∈ noted, event.isOfContainer = false)
      (mem : event ∈ noted) : False := by
    have ordered := uncontained event mem
    cases event <;> simp [Event.isOrder, Event.isOfContainer] at order ordered
  cases tells with
  | goes goes =>
    cases goes with
    | pulling fetches => exact .inl ⟨_, _, fetches, mem⟩
    | pulled fetches => exact .inl ⟨_, _, fetches, before mem rfl⟩
    | starting starts => exact .inr (.inl ⟨_, _, starts, mem⟩)
    | started starts => exact .inr (.inl ⟨_, _, starts, before mem rfl⟩)
    | tries goes => exact (apart goes.uncontained mem).elim
    | succeeds ends | fails ends => exact (apart ends.uncontained mem).elim
    | stopping stops => exact .inr (.inr ⟨_, _, _, stops, mem⟩)
    | _ => cases mem
  | ends ends =>
    cases ends with
    | unpulled fetches => exact .inl ⟨_, _, fetches, mem⟩
    | unstarted starts => exact .inr (.inl ⟨_, _, starts, mem⟩)
    | stopped stops => exact .inr (.inr ⟨_, _, _, stops, before mem rfl⟩)
    | _ => cases mem
  | crashes crashes =>
    cases crashes with
    | fetching fetches => exact .inl ⟨_, _, fetches, mem⟩
    | starting starts => exact .inr (.inl ⟨_, _, starts, mem⟩)
    | calling asks => exact (apart asks.uncontained mem).elim
    | stopping stops => exact .inr (.inr ⟨_, _, _, stops, mem⟩)

/-- An image is fetched by steps that are entered under a token that is not cancelled. -/
theorem Tells.entering_of_pull (tells : own.Tells c stage agent events)
    (mem : .pull image ∈ events) :
    own = entering ∧ c.cancelled = false ∧ ∃ image, agent.image? = some image := by
  rcases tells.ordered mem rfl with
    ⟨_, _, fetches, told⟩ | ⟨_, _, starts, told⟩ | ⟨_, _, _, stops, told⟩
  · cases fetches with
    | now docker free => exact ⟨rfl, free, _, docker⟩
    | before => cases told
  · cases starts <;> simp at told
  · cases stops <;> simp at told

/-- A container is started by steps whose image has come. -/
theorem Tells.pulled_of_start (tells : own.Tells c stage agent events)
    (mem : .start image ∈ events) : ∃ image, own = pulled image := by
  rcases tells.ordered mem rfl with
    ⟨_, _, fetches, told⟩ | ⟨image, _, starts, told⟩ | ⟨_, _, _, stops, told⟩
  · cases fetches <;> simp at told
  · cases starts with
    | now => exact ⟨image, rfl⟩
    | before => cases told
  · cases stops <;> simp at told

/-- An error of its container names the image that the steps have fetched. -/
theorem Ends.image_of_failure {result : StepsResult} {message : String}
    (ends : own.Ends c agent events result) (sound : own.Sound c stage agent)
    (custody : Custody stage agent c.place.workflow own noted)
    (failure : result.failure = some (.container image message)) :
    agent.image? = some image ∧ .pull (Image.normalize image) ∈ noted ++ events := by
  have wanted : agent.image? = some image := by
    rcases ends.accounted sound _ failure with ⟨cancelled, -⟩ | docker
    · cases cancelled
    · exact docker
  refine ⟨wanted, ?_⟩
  cases ends with
  | cancelled => cases failure
  | unpulled fetches cause =>
    obtain ⟨docker, so⟩ := custody.fetches fetches
    obtain rfl := Option.some.inj (docker.symm.trans wanted)
    simp [so]
  | unstarted starts cause =>
    obtain ⟨docker, so⟩ := custody.starts starts
    obtain rfl := Option.some.inj (docker.symm.trans wanted)
    simp [so]
  | host =>
    cases custody with
    | leaving open_ called =>
      cases open_ with
      | host bare => cases bare.symm.trans wanted
  | stopped stops =>
    obtain ⟨opened, calls, open_, called, so⟩ := custody.stops stops
    cases open_ with
    | container docker id =>
      obtain rfl := Option.some.inj (docker.symm.trans wanted)
      rw [← List.append_assoc, so]
      simp [opening]

theorem followPull_notes (progress : World × Progress (Except Cause Unit))
    (noted : w.Notes c.place events progress.1) :
    ∃ w' more, (followPull c image progress).left? = some w' ∧
      w.Notes c.place (events ++ more) w' := by
  obtain ⟨w₁, progress⟩ := progress
  cases progress with
  | crashed reason => exact ⟨w₁, [], rfl, by simpa using noted⟩
  | waits wait => exact ⟨w₁, [], rfl, by simpa using noted⟩
  | finished answer =>
    cases answer with
    | error cause => exact ⟨w₁, [], rfl, by simpa using noted⟩
    | ok done => exact ⟨_, _, rfl, noted.trans (World.notes_note rfl)⟩

theorem followStart_notes (progress : World × Progress (Except Cause String))
    (noted : w.Notes c.place events progress.1) :
    ∃ w' more, (followStart c stage image progress).left? = some w' ∧
      w.Notes c.place (events ++ more) w' := by
  obtain ⟨w₁, progress⟩ := progress
  cases progress with
  | crashed reason => exact ⟨w₁, [], rfl, by simpa using noted⟩
  | waits wait => exact ⟨w₁, [], rfl, by simpa using noted⟩
  | finished answer =>
    cases answer with
    | error cause => exact ⟨w₁, [], rfl, by simpa using noted⟩
    | ok id => exact ⟨_, _, rfl, (noted.trans (World.notes_note rfl)).log _ _ _⟩

/-- Steps whose image has come start a container from it, cancelled or not. -/
theorem start_of_pulled (w : World) :
    ∃ w' more, ((pulled image).move c stage agent w).left? = some w' ∧
      w.Notes c.place (.start (Image.normalize image) :: more) w' :=
  followStart_notes _ (World.notes_begun rfl _)

/-- Steps that are entered fetch the image that the agent names, however that turns out. -/
theorem pull_of_entering (docker : agent.image? = some image) (free : c.cancelled = false)
    (w : World) :
    ∃ w' more, (entering.move c stage agent w).left? = some w' ∧
      w.Notes c.place (.pull (Image.normalize image) :: more) w' := by
  have turn : entering.move c stage agent w = followPull c image
      (World.perform c.place (c.engine.runtime.pull (Image.normalize image))
        (w.note c.place (.pull (Image.normalize image)))) := by
    simp [move, docker, free]
  rw [turn]
  exact followPull_notes _ (World.notes_begun rfl _)

end OwnSteps

/-! ### Turns at a place -/

namespace StageRun

variable {stage : Stage} {inherited agent : Agent} {c : Context} {past : List Moment}
  {run run' : StageRun} {w w' : World} {path : List Nat} {news : List Record} {m : Moment}
  {r : Record} {branches : Option StageResults} {own : OwnSteps} {reason : String}
  {names : List String} {noted : List Event}

/-- Whether what a stage comes to next are its own steps, or their lack. -/
def isAtSteps : StageRun → Bool
  | working _ _ _ .entering => true
  | fresh stage _ => stage.steps.isEmpty && stage.parallel.isEmpty
  | joining stage _ runs failure =>
    stage.steps.isEmpty && failure.isNone && (outputs? runs).isSome
  | _ => false

theorem entering_of_atSteps (shape : Shape stage inherited run) (at_steps : run.isAtSteps = true)
    (some_steps : stage.steps ≠ []) :
    ∃ branches, run = working stage (stage.effectiveAgent inherited) branches .entering := by
  cases run with
  | fresh s a =>
    obtain ⟨rfl, rfl⟩ := shape
    simp [isAtSteps, some_steps] at at_steps
  | joining s a runs failure =>
    obtain ⟨rfl, -⟩ := shape
    simp [isAtSteps, some_steps] at at_steps
  | working s a branches own =>
    obtain ⟨rfl, rfl⟩ := shape
    cases own with
    | entering => exact ⟨branches, rfl⟩
    | _ => cases at_steps
  | _ => cases at_steps

/-- A turn at a place where own steps are under way is one of these steps. -/
theorem left?_of_working (there : run.at? path = some (working stage agent branches own)) :
    (run.move c w path).left? = (own.move (contextAt c run path) stage agent w).left? := by
  induction path generalizing c run with
  | nil =>
    obtain rfl : run = working stage agent branches own := by simpa using there
    simp only [move, moveHere, contextAt_nil]
    cases own.move c stage agent w <;> rfl
  | cons i path ih =>
    cases run with
    | joining s a runs failure =>
      simp only [at?] at there
      split at there
      next inner found =>
        rw [contextAt_cons found, ← ih there, move]
        split
        next missing => cases found.symm.trans missing
        next settled =>
          obtain rfl := Option.some.inj (found.symm.trans settled)
          cases at?_settled there
        next branch _ same =>
          obtain rfl := Option.some.inj (found.symm.trans same)
          cases inner.move (Context.inside c s failure i) w path with
          | ended w value => cases value
          | _ => rfl
      next => cases there
    | _ => cases there

/-- What breaks down are own steps at the place of the turn. -/
theorem working_of_crashed (broke : run.move c w path = .crashed w' reason names) :
    ∃ stage agent branches own, run.at? path = some (working stage agent branches own) := by
  induction path generalizing c run names with
  | nil =>
    cases run with
    | working stage agent branches own => exact ⟨_, _, _, _, at?_nil _⟩
    | joining stage agent runs failure =>
      simp only [move, moveHere] at broke
      split at broke <;> cases broke
    | _ => simp [move, moveHere] at broke
  | cons i path ih =>
    cases run with
    | joining stage agent runs failure =>
      rw [move] at broke
      split at broke
      next => cases broke
      next => cases broke
      next inner _ found =>
        cases turn : inner.move (Context.inside c stage failure i) w path with
        | crashed w₁ why inner_names =>
          simp only [turn, followBranch] at broke
          cases broke
          rw [at?_joining found]
          exact ih turn
        | _ => simp [turn, followBranch] at broke
    | _ => simp [move] at broke

/-- What a turn notes of own steps it notes where they are under way, at its own place. -/
theorem working_of_news (moved : run.move c w path = .moved w' run')
    (noted : w'.history = news.reverse ++ w.history) (mem : r ∈ news)
    (own : r.event.isOwn = true) :
    ∃ stage agent branches own, run.at? path = some (working stage agent branches own) := by
  induction path generalizing c run run' with
  | nil =>
    obtain ⟨s, a, branches, own, rfl⟩ :=
      working_of_own moved noted mem (place_here moved noted r mem) own
    exact ⟨s, a, branches, own, at?_nil _⟩
  | cons i path ih =>
    cases turned_of_move moved with
    | @receives _ _ _ _ _ _ _ outcome there =>
      have notes : w.Notes c.place [.received i outcome.isSome] (w.note c.place _) :=
        World.notes_note rfl
      have received := List.mem_singleton.mp (notes.mem noted mem (notable_of_isOwn own))
      simp [received, Event.isOwn] at own
    | inside there unsettled inner =>
      rw [at?_joining there]
      exact ih inner

/-! ### What a stage has come to -/

theorem records_append (past more : List Moment) :
    records (past ++ more) = records past ++ records more := by simp [records]

/-- Steps that are under way are those of a stage that has some. -/
def HasSteps : StageRun → Prop
  | working stage .. => stage.steps ≠ []
  | _ => True

theorem hasSteps_ownSteps (branches : Option StageResults) :
    HasSteps (ownSteps stage agent branches) := by
  unfold ownSteps
  split
  next => trivial
  next some => exact fun none => some (List.isEmpty_iff.mpr none)

theorem Run.hasSteps (so : Run stage inherited c past run) : run.HasSteps := by
  induction so with
  | begins c => trivial
  | cancelled so ih => exact ih
  | turn so moved noted ih =>
    cases turned_of_move moved with
    | enters => exact enter_cases (fun _ => hasSteps_ownSteps _) trivial
    | leaves all => exact leaveJoin_cases _ _ (fun _ _ _ => trivial) fun _ _ => hasSteps_ownSteps _
    | works notes goes => exact ih
    | settles | receives | inside => trivial

/-- A stage without steps notes the ends of its branches only. -/
theorem Run.receipts_of_no_steps (so : Run stage inherited c past run) (bare : stage.steps = []) :
    Receipts (marksAt c.place (records past)) := by
  induction so with
  | begins c => simp [Receipts, marksAt]
  | cancelled so ih => exact ih
  | @turn c past run run' path w w' news so moved noted ih =>
    cases turned_of_move moved with
    | enters | leaves all =>
      have silent : w.Notes c.place [] w := .nothing rfl
      rw [marksAt_concat silent noted, List.append_nil]
      exact ih
    | works | settles =>
      obtain ⟨rfl, -⟩ := so.shape
      exact absurd bare so.hasSteps
    | @receives _ _ _ _ i _ _ outcome there =>
      have notes : w.Notes c.place [.received i outcome.isSome]
          (w.note c.place (.received i outcome.isSome)) := World.notes_note rfl
      rw [marksAt_concat notes noted]
      intro event mem
      rcases List.mem_append.mp mem with earlier | now
      · exact ih event earlier
      · exact ⟨_, _, List.mem_singleton.mp now⟩
    | inside there unsettled inner =>
      rw [records_concat, marksAt_append, marksAt_inside inner noted, List.append_nil]
      exact ih

/-- A join that has a failure has it from a branch. -/
def Blames (noted : List Event) : StageRun → Prop
  | joining _ _ _ failure => failure.isSome = true → ∃ i, .received i true ∈ noted
  | _ => True

theorem blames_ownSteps (branches : Option StageResults) :
    Blames noted (ownSteps stage agent branches) :=
  ownSteps_cases branches (fun _ => trivial) trivial

theorem Run.blames (so : Run stage inherited c past run) :
    run.Blames (marksAt c.place (records past)) := by
  induction so with
  | begins c => trivial
  | cancelled so ih => exact ih
  | @turn c past run run' path w w' news so moved noted ih =>
    cases turned_of_move moved with
    | enters => exact enter_cases (fun _ => blames_ownSteps _) (by simp [Blames])
    | leaves all => exact leaveJoin_cases _ _ (fun _ _ _ => trivial) fun _ _ => blames_ownSteps _
    | works | settles => trivial
    | @receives _ _ _ failure i _ _ outcome there =>
      have notes : w.Notes c.place [.received i outcome.isSome]
          (w.note c.place (.received i outcome.isSome)) := World.notes_note rfl
      rw [marksAt_concat notes noted]
      intro failed
      cases failure with
      | some e =>
        obtain ⟨j, earlier⟩ := ih rfl
        exact ⟨j, List.mem_append_left _ earlier⟩
      | none =>
        have now : outcome.isSome = true := failed
        exact ⟨i, by simp [now]⟩
    | inside there unsettled inner =>
      rw [records_concat, marksAt_append, marksAt_inside inner noted, List.append_nil]
      exact ih

/-- A token is cancelled by a join on the way down that has a failure. -/
theorem failing_of_cancelled (cancelled : (contextAt c run path).cancelled = true)
    (free : c.cancelled = false) :
    ∃ above i below stage agent runs failure, path = above ++ i :: below ∧
      run.at? above = some (joining stage agent runs failure) ∧ failure.isSome = true := by
  induction path generalizing c run with
  | nil => simp [free] at cancelled
  | cons i path ih =>
    cases run with
    | joining stage agent runs failure =>
      cases failed : failure.isSome with
      | true => exact ⟨[], i, path, stage, agent, runs, failure, rfl, at?_nil _, failed⟩
      | false =>
        simp only [contextAt] at cancelled
        split at cancelled
        next inner found =>
          have free' : (Context.inside c stage failure i).cancelled = false := by
            simp [Context.inside, free, failed]
          obtain ⟨above, j, below, s, a, rs, f, rfl, there, failed'⟩ := ih cancelled free'
          exact ⟨i :: above, j, below, s, a, rs, f, rfl, by rw [at?_joining found, there], failed'⟩
        next => simp [free] at cancelled
    | _ => simp [contextAt, free] at cancelled

/-- Where its container lets a stage down, the error names the image that was fetched for it. -/
theorem Run.image_of_failure {worker : Stage} {output : StageOutput} {image message : String}
    (so : Run stage inherited c past run) (mem : m ∈ past)
    (worked : m.before = working worker agent branches own)
    (settled_ : m.after = settled output (some (.container image message))) :
    (stage.effectiveAgent inherited).image? = some image ∧
      .pull (Image.normalize image) ∈ marksAt c.place (records past) := by
  obtain ⟨before, after, rfl⟩ := List.append_of_mem mem
  obtain ⟨path, first, last, news⟩ := m
  obtain ⟨c', w, w', earlier, moved, noted, -, place⟩ := so.split rfl
  obtain rfl : first = working worker agent branches own := worked
  obtain rfl : last = settled output (some (.container image message)) := settled_
  obtain ⟨rfl, rfl⟩ := earlier.shape
  obtain ⟨receipts, so_far, split, -, custody⟩ := earlier.traced
  generalize failure : some (StepError.container image message) = outcome at moved
  cases turned_of_move moved with
  | settles notes ends =>
    obtain ⟨docker, pull⟩ := ends.image_of_failure earlier.sound custody failure.symm
    refine ⟨docker, ?_⟩
    rw [List.append_cons, records_append, marksAt_append, ← place, marksAt_concat notes noted,
      split]
    refine List.mem_append_left _ ?_
    rw [List.append_assoc]
    exact List.mem_append_right _ pull

end StageRun

end PipelineRunner
