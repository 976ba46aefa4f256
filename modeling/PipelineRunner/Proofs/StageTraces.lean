import PipelineRunner.Proofs.OwnStepsRuns

/-! What a stage leaves behind in the history. Behind the receipts of its branches stand the marks
of its own steps: a container is opened, calls follow one after the other, and the container is
stopped. How far the steps have come is how much of this has been noted. -/

namespace PipelineRunner

/-- Calls of the steps of a stage, each of which is over before the next one begins; the flag tells
whether the last one is in flight. -/
inductive Calls (stage : Stage) (workflow : String) (container : Option String) :
    Bool → List Event → Prop where
  | nothing : Calls stage workflow container false []
  | called {events : List Event} (calls : Calls stage workflow container false events) {step : Step}
      (mem : step ∈ stage.steps) (plugin method : String) (builtin : Bool) :
      Calls stage workflow container true
        (events ++ [.called plugin method (step.paramsWithin workflow container) builtin])
  | answered {events : List Event} (calls : Calls stage workflow container true events)
      (answer : Except Cause (Option String)) :
      Calls stage workflow container false (events ++ [.answered answer])
  | abandoned {events : List Event} (calls : Calls stage workflow container true events) :
      Calls stage workflow container false (events ++ [.abandoned])

/-- A container comes up from an image. -/
def opening (image id : String) : List Event :=
  [.pull image, .pulled image, .start image, .started image id]

/-- What has to be noted before the first step of a stage is called. -/
inductive Opened (agent : Agent) : Option String → List Event → Prop where
  | host (bare : agent.image? = none) : Opened agent none []
  | container {image : String} (docker : agent.image? = some image) (id : String) :
      Opened agent (some id) (opening (Image.normalize image) id)

/-- What the own steps of a stage have noted as they have come so far. -/
inductive Custody (stage : Stage) (agent : Agent) (workflow : String) :
    OwnSteps → List Event → Prop where
  | entering : Custody stage agent workflow .entering []
  | pulling {image : String} (docker : agent.image? = some image)
      (wait : Waiting (Except Cause Unit)) :
      Custody stage agent workflow (.pulling image wait) [.pull (Image.normalize image)]
  | pulled {image : String} (docker : agent.image? = some image) :
      Custody stage agent workflow (.pulled image)
        [.pull (Image.normalize image), .pulled (Image.normalize image)]
  | starting {image : String} (docker : agent.image? = some image)
      (wait : Waiting (Except Cause String)) :
      Custody stage agent workflow (.starting image wait)
        [.pull (Image.normalize image), .pulled (Image.normalize image),
          .start (Image.normalize image)]
  | between {container : Option String} {opened calls : List Event} {todo : List Step}
      {outputs : List String} (open_ : Opened agent container opened)
      (called : Calls stage workflow container false calls) :
      Custody stage agent workflow (.between container todo outputs) (opened ++ calls)
  | trying {container : Option String} {opened calls : List Event} {trial : Trial}
      {todo : List Step} {outputs : List String} (open_ : Opened agent container opened)
      (called : Calls stage workflow container trial.inFlight calls) :
      Custody stage agent workflow (.trying container trial todo outputs) (opened ++ calls)
  | leaving {container : Option String} {opened calls : List Event} {result : StepsResult}
      (open_ : Opened agent container opened)
      (called : Calls stage workflow container false calls) :
      Custody stage agent workflow (.leaving container result) (opened ++ calls)
  | stopping {id : String} {opened calls : List Event} {result : StepsResult}
      (open_ : Opened agent (some id) opened)
      (called : Calls stage workflow (some id) false calls) (wait : Waiting (Except Cause Unit)) :
      Custody stage agent workflow (.stopping id wait result) (opened ++ calls ++ [.stop id])

/-- What the own steps of a stage have noted when they are over. -/
inductive Closed (stage : Stage) (agent : Agent) (workflow : String) : List Event → Prop where
  | untouched : Closed stage agent workflow []
  | unpulled {image : String} (docker : agent.image? = some image) :
      Closed stage agent workflow [.pull (Image.normalize image)]
  | unstarted {image : String} (docker : agent.image? = some image) :
      Closed stage agent workflow
        [.pull (Image.normalize image), .pulled (Image.normalize image),
          .start (Image.normalize image)]
  | host {calls : List Event} (bare : agent.image? = none)
      (called : Calls stage workflow none false calls) : Closed stage agent workflow calls
  | stopped {id : String} {opened calls : List Event} (open_ : Opened agent (some id) opened)
      (called : Calls stage workflow (some id) false calls) :
      Closed stage agent workflow (opened ++ calls ++ [.stop id, .stopped id])

namespace Calls

variable {stage : Stage} {c : Context} {container : Option String} {step : Step}
  {calls events : List Event} {t t' : Trial}

theorem asks {attempt : Nat} (h : t.Asks c attempt events) (mem : step ∈ stage.steps)
    (performs : t.Performs c container step)
    (called : Calls stage c.place.workflow container t.inFlight calls) :
    Calls stage c.place.workflow container true (calls ++ events) := by
  cases h with
  | now ready free =>
    rw [Trial.inFlight, ready] at called
    rw [performs.2]
    exact called.called mem _ _ _
  | before calling =>
    rw [Trial.inFlight, calling] at called
    simpa using called

theorem goes (h : t.Goes c events t') (mem : step ∈ stage.steps)
    (performs : t.Performs c container step)
    (called : Calls stage c.place.workflow container t.inFlight calls) :
    Calls stage c.place.workflow container t'.inFlight (calls ++ events) := by
  cases h with
  | waits asks deadline call => exact called.asks asks mem performs
  | pauses asks more cause timer =>
    rw [← List.append_assoc]
    exact (called.asks asks mem performs).answered _
  | expires calling more timer =>
    rw [Trial.inFlight, calling] at called
    exact called.abandoned
  | resumes pausing free =>
    rw [Trial.inFlight, pausing] at called
    simpa [Trial.inFlight] using called

theorem ends {result : StepResult} (h : t.Ends c events result) (mem : step ∈ stage.steps)
    (performs : t.Performs c container step)
    (called : Calls stage c.place.workflow container t.inFlight calls) :
    Calls stage c.place.workflow container false (calls ++ events) := by
  cases h with
  | cancelled idle cancelled =>
    rw [idle] at called
    simpa using called
  | interrupted calling interrupt cancelled =>
    rw [calling] at called
    exact called.abandoned
  | refused ready free message =>
    rw [Trial.inFlight, ready] at called
    simpa using called
  | succeeds asks output =>
    rw [← List.append_assoc]
    exact (called.asks asks mem performs).answered _
  | fails asks last cause =>
    rw [← List.append_assoc]
    exact (called.asks asks mem performs).answered _
  | timedOut calling last =>
    rw [Trial.inFlight, calling] at called
    exact called.abandoned

end Calls

namespace Custody

variable {c : Context} {stage : Stage} {agent : Agent} {own own' : OwnSteps} {image id : String}
  {noted events : List Event} {result : StepsResult}

theorem fetches (h : own.Fetches c agent image events)
    (custody : Custody stage agent c.place.workflow own noted) :
    agent.image? = some image ∧ noted ++ events = [.pull (Image.normalize image)] := by
  cases h with
  | now docker free =>
    cases custody
    exact ⟨docker, rfl⟩
  | before =>
    cases custody with
    | pulling docker wait => exact ⟨docker, rfl⟩

theorem starts (h : own.Starts image events)
    (custody : Custody stage agent c.place.workflow own noted) :
    agent.image? = some image ∧
      noted ++ events = [.pull (Image.normalize image), .pulled (Image.normalize image),
        .start (Image.normalize image)] := by
  cases h with
  | now =>
    cases custody with
    | pulled docker => exact ⟨docker, rfl⟩
  | before =>
    cases custody with
    | starting docker wait => exact ⟨docker, rfl⟩

theorem stops (h : own.Stops id result events)
    (custody : Custody stage agent c.place.workflow own noted) :
    ∃ opened calls, Opened agent (some id) opened ∧
      Calls stage c.place.workflow (some id) false calls ∧
      noted ++ events = opened ++ calls ++ [.stop id] := by
  cases h with
  | now =>
    cases custody with
    | leaving open_ called => exact ⟨_, _, open_, called, rfl⟩
  | before =>
    cases custody with
    | stopping open_ called wait => exact ⟨_, _, open_, called, by simp⟩

/-- What a turn notes belongs to how far the steps have come by it. -/
theorem goes (h : own.Goes c stage agent events own') (sound : own.Sound c stage agent)
    (custody : Custody stage agent c.place.workflow own noted) :
    Custody stage agent c.place.workflow own' (noted ++ events) := by
  cases h with
  | host bare =>
    cases custody
    exact .between (.host bare) .nothing
  | pulling fetches wait =>
    obtain ⟨docker, so⟩ := custody.fetches fetches
    rw [so]
    exact .pulling docker wait
  | pulled fetches =>
    obtain ⟨docker, so⟩ := custody.fetches fetches
    rw [← List.append_assoc, so]
    exact .pulled docker
  | starting starts wait =>
    obtain ⟨docker, so⟩ := custody.starts starts
    rw [so]
    exact .starting docker wait
  | started starts id =>
    obtain ⟨docker, so⟩ := custody.starts starts
    rw [← List.append_assoc, so]
    have open_ : Opened agent (some id) (opening (Image.normalize _) id) := .container docker id
    simpa [opening] using Custody.between open_ .nothing
  | through =>
    cases custody with
    | between open_ called => simpa using Custody.leaving open_ called
  | cancelled cancelled =>
    cases custody with
    | between open_ called => simpa using Custody.leaving open_ called
  | unresolved free =>
    cases custody with
    | between open_ called => simpa using Custody.leaving open_ called
  | resolved free binding =>
    cases custody with
    | between open_ called =>
      rw [List.append_nil]
      exact .trying open_ called
  | tries goes =>
    obtain ⟨-, ⟨step, mem, performs⟩, -⟩ := sound
    cases custody with
    | trying open_ called =>
      rw [List.append_assoc]
      exact .trying open_ (called.goes goes mem performs)
  | succeeds ends =>
    obtain ⟨-, ⟨step, mem, performs⟩, -⟩ := sound
    cases custody with
    | trying open_ called =>
      rw [List.append_assoc]
      exact .between open_ (called.ends ends mem performs)
  | fails ends =>
    obtain ⟨-, ⟨step, mem, performs⟩, -⟩ := sound
    cases custody with
    | trying open_ called =>
      rw [List.append_assoc]
      exact .leaving open_ (called.ends ends mem performs)
  | stopping stops wait =>
    obtain ⟨opened, calls, open_, called, so⟩ := custody.stops stops
    rw [so]
    exact .stopping open_ called wait

theorem ends (h : own.Ends c agent events result)
    (custody : Custody stage agent c.place.workflow own noted) :
    Closed stage agent c.place.workflow (noted ++ events) := by
  cases h with
  | cancelled docker cancelled =>
    cases custody
    exact .untouched
  | unpulled fetches cause =>
    obtain ⟨docker, so⟩ := custody.fetches fetches
    rw [so]
    exact .unpulled docker
  | unstarted starts cause =>
    obtain ⟨docker, so⟩ := custody.starts starts
    rw [so]
    exact .unstarted docker
  | host =>
    cases custody with
    | leaving open_ called =>
      cases open_ with
      | host bare => simpa using Closed.host bare called
  | stopped stops =>
    obtain ⟨opened, calls, open_, called, so⟩ := custody.stops stops
    rw [← List.append_assoc, so]
    simpa using Closed.stopped open_ called

end Custody

namespace StageRun

/-- That branches have been received, and nothing else. -/
def Receipts (events : List Event) : Prop :=
  ∀ event ∈ events, ∃ i failed, event = .received i failed

/-- What a stage has noted at its place as it has come so far. -/
def Traced (stage : Stage) (agent : Agent) (workflow : String) (noted : List Event) :
    StageRun → Prop
  | fresh .. => noted = []
  | joining .. => Receipts noted
  | working _ _ _ own =>
    ∃ receipts events, noted = receipts ++ events ∧ Receipts receipts ∧
      Custody stage agent workflow own events
  | settled .. =>
    ∃ receipts events, noted = receipts ++ events ∧ Receipts receipts ∧
      Closed stage agent workflow events
  | received _ => False

variable {stage : Stage} {inherited agent : Agent} {c : Context} {past : List Moment}
  {run : StageRun} {workflow : String} {noted : List Event}

theorem traced_ownSteps (s : Stage) (branches : Option StageResults) (h : Receipts noted) :
    Traced stage agent workflow noted (ownSteps s agent branches) := by
  refine ownSteps_cases branches (fun output => ?_) ?_
  · exact ⟨noted, [], by simp, h, .untouched⟩
  · exact ⟨noted, [], by simp, h, .entering⟩

/-- What is noted at the place of a stage fits how far it has come. -/
theorem Run.traced (so : Run stage inherited c past run) :
    run.Traced stage (stage.effectiveAgent inherited) c.place.workflow
      (marksAt c.place (records past)) := by
  induction so with
  | begins c => rfl
  | cancelled so ih => exact ih
  | @turn c past run run' path w w' news so moved noted ih =>
    have shape := so.shape
    have sound := so.sound
    rw [records_concat, marksAt_append]
    cases turned_of_move moved with
    | enters =>
      obtain ⟨rfl, rfl⟩ := shape
      have silent : w.Notes c.place [] w := .nothing rfl
      have idle : marksAt c.place (records past) = [] := ih
      rw [idle, silent.marksAt noted, List.nil_append]
      have nothing : Receipts [] := by simp [Receipts]
      exact enter_cases (fun _ => traced_ownSteps _ _ nothing) nothing
    | @leaves _ _ _ failure outputs all =>
      obtain ⟨rfl, rfl, -⟩ := shape
      have silent : w.Notes c.place [] w := .nothing rfl
      rw [silent.marksAt noted, List.append_nil]
      cases failure with
      | some e => exact ⟨_, [], (List.append_nil _).symm, ih, .untouched⟩
      | none => exact traced_ownSteps _ _ ih
    | works notes goes =>
      obtain ⟨rfl, rfl⟩ := shape
      obtain ⟨receipts, events, so_far, received, custody⟩ := ih
      rw [notes.marksAt noted, so_far, List.append_assoc]
      exact ⟨receipts, _, rfl, received, custody.goes goes sound⟩
    | settles notes ends =>
      obtain ⟨rfl, rfl⟩ := shape
      obtain ⟨receipts, events, so_far, received, custody⟩ := ih
      rw [notes.marksAt noted, so_far, List.append_assoc]
      exact ⟨receipts, _, rfl, received, custody.ends ends⟩
    | @receives _ _ _ _ i _ _ outcome there =>
      have notes : w.Notes c.place [.received i outcome.isSome]
          (w.note c.place (.received i outcome.isSome)) := World.notes_note rfl
      rw [notes.marksAt noted]
      intro event mem
      rcases List.mem_append.mp mem with earlier | now
      · exact ih event earlier
      · exact ⟨_, _, List.mem_singleton.mp now⟩
    | inside there unsettled inner =>
      rw [marksAt_inside inner noted, List.append_nil]
      exact ih

end StageRun
end PipelineRunner
