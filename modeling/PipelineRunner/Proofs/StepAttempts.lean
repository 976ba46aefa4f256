import PipelineRunner.Proofs.StageOutcomes

/-! The attempts of a step, as the history shows them. An attempt begins with a call, and it ends
when the call has answered or when nobody waits for it any longer. Where a stage does not interrupt
its branches, what an attempt comes to for good is what its step leaves behind. -/

namespace PipelineRunner

variable {policy : RetryPolicy} {stage : Stage} {noted events : List Event} {i : Nat}

/-- An element of two lists stands in one of them. -/
theorem split_append {α : Type} {xs ys before after : List α} {x : α}
    (h : xs ++ ys = before ++ x :: after) :
    (∃ rest, xs = before ++ x :: rest ∧ after = rest ++ ys) ∨
      ∃ between, before = xs ++ between ∧ ys = between ++ x :: after := by
  rcases List.append_eq_append_iff.mp h with ⟨between, rfl, split⟩ | ⟨rest, rfl, split⟩
  · exact .inr ⟨between, rfl, split⟩
  · cases rest with
    | nil => exact .inr ⟨[], by simp, split.symm⟩
    | cons y rest =>
      obtain ⟨rfl, rfl⟩ := List.cons.inj split
      exact .inl ⟨rest, rfl, rfl⟩

/-- How many attempts a step has had behind an event. -/
def Event.tally : Nat → Event → Nat
  | made, .called .. => made + 1
  | _, .answered (.ok _) => 0
  | made, _ => made

/-- How many attempts the step that is under way behind some events has had. -/
def attempts (events : List Event) : Nat := events.foldl Event.tally 0

theorem attempts_append (events more : List Event) :
    attempts (events ++ more) = more.foldl Event.tally (attempts events) := List.foldl_append

/-- Whether an attempt ends with an event. -/
def Event.endsAttempt : Event → Bool
  | .answered _ => true
  | .abandoned => true
  | _ => false

/-- No attempt ends with any of these events. -/
def Quiet (events : List Event) : Prop := ∀ event ∈ events, event.endsAttempt = false

theorem Quiet.concat {last : Event} (h : Quiet events) (unended : last.endsAttempt = false) :
    Quiet (events ++ [last]) := by
  intro event mem
  rcases List.mem_append.mp mem with earlier | now
  · exact h event earlier
  · rw [List.mem_singleton.mp now, unended]

/-- What a step comes to for good when an attempt ends behind some events: the call has delivered,
or it was the last attempt that may be made. -/
inductive Concludes (policy : RetryPolicy) (stage : Stage) (noted : List Event) :
    Event → StepResult → Prop where
  | delivers (output : Option String) :
      Concludes policy stage noted (.answered (.ok output)) (.ok output)
  | fails {step : Step} (there : stage.steps[(delivered noted).length]? = some step)
      (last : policy.maxAttempts ≤ attempts noted) (cause : Cause) :
      Concludes policy stage noted (.answered (.error cause))
        (.error (.failed step.command (attempts noted) cause.message))
  | expires {step : Step} (there : stage.steps[(delivered noted).length]? = some step)
      (last : policy.maxAttempts ≤ attempts noted) :
      Concludes policy stage noted .abandoned
        (.error (.timedOut step.command (attempts noted) policy.attemptTimeout))

theorem Concludes.endsAttempt {event : Event} {result : StepResult}
    (h : Concludes policy stage noted event result) : event.endsAttempt = true := by
  cases h <;> rfl

/-- The text that a step leaves in the report. -/
def StepResult.text : StepResult → String
  | .ok output => output.getD ""
  | .error e => e.message

/-- A step has left its result at a position; its error is the failure of all the steps. -/
structure StepsResult.Shows (shown : StepsResult) (i : Nat) (result : StepResult) : Prop where
  text : shown.outputs[i]? = some result.text
  failure : ∀ e, result = .error e → shown.failure = some e

/-- What has been left stays, and more may have come behind it. -/
structure StepsResult.Grows (shown shown' : StepsResult) : Prop where
  outputs : shown.outputs <+: shown'.outputs
  failure : ∀ e, shown.failure = some e → shown'.failure = some e

namespace StepsResult

variable {shown shown' : StepsResult} {result : StepResult}

theorem Grows.still (shown : StepsResult) : shown.Grows shown := ⟨List.prefix_rfl, fun _ h => h⟩

theorem grows_nothing (shown : StepsResult) : Grows ⟨[], none⟩ shown :=
  ⟨List.nil_prefix, by simp⟩

theorem grows_concat (outputs : List String) (text : String) (failure : Option StepError) :
    Grows ⟨outputs, none⟩ ⟨outputs ++ [text], failure⟩ :=
  ⟨List.prefix_append _ _, by simp⟩

theorem Shows.grows (h : shown.Shows i result) (grows : shown.Grows shown') :
    shown'.Shows i result := by
  obtain ⟨more, so⟩ := grows.outputs
  refine ⟨?_, fun e he => grows.failure e (h.failure e he)⟩
  rw [← so, List.getElem?_append_left (List.getElem?_eq_some_iff.mp h.text).1]
  exact h.text

end StepsResult

/-- Whatever attempts have come to for good is what their steps have left behind. -/
def Concluded (policy : RetryPolicy) (stage : Stage) (noted : List Event) (shown : StepsResult) :
    Prop :=
  ∀ before event after result, noted = before ++ event :: after →
    Concludes policy stage before event result → shown.Shows (delivered before).length result

namespace Concluded

variable {shown shown' : StepsResult}

theorem append (h : Concluded policy stage noted shown) (grows : shown.Grows shown')
    (news : ∀ before event after result, events = before ++ event :: after →
      Concludes policy stage (noted ++ before) event result →
        shown'.Shows (delivered (noted ++ before)).length result) :
    Concluded policy stage (noted ++ events) shown' := by
  intro before event after result split concludes
  rcases split_append split with ⟨rest, earlier, -⟩ | ⟨between, rfl, now⟩
  · exact (h before event rest result earlier concludes).grows grows
  · exact news between event after result now concludes

/-- Only what ends an attempt may have to be left behind. -/
theorem quiet (h : Concluded policy stage noted shown) (grows : shown.Grows shown')
    (quiet : Quiet events) : Concluded policy stage (noted ++ events) shown' := by
  refine h.append grows fun before event after result split concludes => ?_
  have unended := quiet event (by simp [split])
  rw [concludes.endsAttempt] at unended
  cases unended

theorem concat {event : Event} (h : Concluded policy stage noted shown)
    (grows : shown.Grows shown')
    (last : ∀ result, Concludes policy stage noted event result →
      shown'.Shows (delivered noted).length result) :
    Concluded policy stage (noted ++ [event]) shown' := by
  refine h.append grows fun before event' after result split concludes => ?_
  obtain ⟨rfl, rfl, -⟩ := by simpa [List.cons_eq_append_iff] using split
  rw [List.append_nil] at concludes ⊢
  exact last result concludes

theorem of_quiet (quiet : Quiet noted) (shown : StepsResult) :
    Concluded policy stage noted shown := by
  have nothing : Concluded policy stage [] ⟨[], none⟩ := by
    intro before event after result split
    simp at split
  simpa using nothing.quiet (StepsResult.grows_nothing shown) quiet

end Concluded

namespace Trial

variable {c : Context} {t t' : Trial} {attempt : Nat} {result : StepResult} {step : Step}

/-- How many attempts of a step have been made, with the one that is in flight. -/
def made (t : Trial) : Nat :=
  match t.phase with
  | .ready made => made
  | .calling attempt _ _ => attempt
  | .pausing made _ => made

theorem Asks.tally (h : t.Asks c attempt events) : events.foldl Event.tally t.made = attempt := by
  cases h with
  | now ready => simp [made, ready, Event.tally]
  | before calling => simp [made, calling]

theorem Asks.quiet (h : t.Asks c attempt events) : Quiet events := by
  cases h <;> simp [Quiet, Event.endsAttempt]

theorem Goes.tally (h : t.Goes c events t') : events.foldl Event.tally t.made = t'.made := by
  cases h with
  | waits asks => exact asks.tally
  | pauses asks =>
    rw [List.foldl_append, asks.tally]
    rfl
  | expires calling => simp [made, calling, Event.tally]
  | resumes pausing => simp [made, pausing]

theorem Ends.tally {output : Option String} (h : t.Ends c events (.ok output)) :
    events.foldl Event.tally t.made = 0 := by
  cases h with
  | succeeds asks => simp [Event.tally]

/-- An attempt that is followed by a pause is not the last one. -/
theorem Goes.concluded {shown : StepsResult} (h : t.Goes c events t')
    (paced : attempts noted = t.made) (concluded : Concluded c.engine.policy stage noted shown) :
    Concluded c.engine.policy stage (noted ++ events) shown := by
  cases h with
  | waits asks => exact concluded.quiet (.still _) asks.quiet
  | resumes => exact concluded.quiet (.still _) (by simp [Quiet])
  | @pauses attempt events asks more cause =>
    rw [← List.append_assoc]
    refine (concluded.quiet (.still _) asks.quiet).concat (.still _) fun result concludes => ?_
    cases concludes with
    | fails there last =>
      rw [attempts_append, paced, asks.tally] at last
      omega
  | expires calling more =>
    refine concluded.concat (.still _) fun result concludes => ?_
    cases concludes with
    | expires there last =>
      simp only [paced, made, calling] at last
      omega

/-- What a step ends with is what its last attempt has come to, unless it is interrupted. -/
theorem Ends.concluded {shown shown' : StepsResult} (h : t.Ends c events result)
    (calm : c.interrupt = false) (paced : attempts noted = t.made)
    (there : stage.steps[(delivered noted).length]? = some step) (command : t.command = step.command)
    (concluded : Concluded c.engine.policy stage noted shown) (grows : shown.Grows shown')
    (left : shown'.Shows (delivered noted).length result) :
    Concluded c.engine.policy stage (noted ++ events) shown' := by
  have unmoved {quiet : List Event} {attempt : Nat} (asks : t.Asks c attempt quiet) :
      delivered (noted ++ quiet) = delivered noted := by simp [asks.delivered_nil]
  cases h with
  | cancelled | refused => exact concluded.quiet grows (by simp [Quiet])
  | interrupted _ interrupt => simp [calm] at interrupt
  | succeeds asks output =>
    rw [← List.append_assoc]
    refine (concluded.quiet (.still _) asks.quiet).concat grows fun result concludes => ?_
    cases concludes
    rwa [unmoved asks]
  | fails asks last cause =>
    rw [← List.append_assoc]
    refine (concluded.quiet (.still _) asks.quiet).concat grows fun result concludes => ?_
    cases concludes with
    | fails there' =>
      rw [unmoved asks] at there' ⊢
      obtain rfl := Option.some.inj (there.symm.trans there')
      rw [attempts_append, paced, asks.tally, ← command]
      exact left
  | @timedOut attempt deadline call calling last =>
    refine concluded.concat grows fun result concludes => ?_
    cases concludes with
    | expires there' =>
      obtain rfl := Option.some.inj (there.symm.trans there')
      have counted : attempts noted = attempt := by simp [paced, made, calling]
      rw [counted, ← command]
      exact left

end Trial

namespace OwnSteps

variable {c : Context} {agent : Agent} {own own' : OwnSteps} {image id : String}
  {result : StepsResult} {workflow : String} {erred : StepError → Prop}

/-- What the steps have left behind as they have come so far. -/
def shown : OwnSteps → StepsResult
  | between _ _ outputs => ⟨outputs, none⟩
  | trying _ _ _ outputs => ⟨outputs, none⟩
  | leaving _ result => result
  | stopping _ _ result => result
  | _ => ⟨[], none⟩

/-- The attempts of the step that is under way are those that the history tells of. -/
def Paced (noted : List Event) : OwnSteps → Prop
  | trying _ trial _ _ => attempts noted = trial.made
  | leaving .. => True
  | stopping .. => True
  | _ => attempts noted = 0

theorem Fetches.quiet (h : Fetches c agent own image events) : Quiet events := by
  cases h <;> simp [Quiet, Event.endsAttempt]

theorem Starts.quiet (h : Starts own image events) : Quiet events := by
  cases h <;> simp [Quiet, Event.endsAttempt]

theorem Stops.quiet (h : Stops own id result events) : Quiet events := by
  cases h <;> simp [Quiet, Event.endsAttempt]

theorem Fetches.shown_eq (h : Fetches c agent own image events) : own.shown = ⟨[], none⟩ := by
  cases h <;> rfl

theorem Starts.shown_eq (h : Starts own image events) : own.shown = ⟨[], none⟩ := by
  cases h <;> rfl

theorem Stops.shown_eq (h : Stops own id result events) : own.shown = result := by
  cases h <;> rfl

/-- What steps have left behind stays as they go on. -/
theorem Goes.grows (h : own.Goes c stage agent events own') : own.shown.Grows own'.shown := by
  cases h with
  | host | resolved | tries => exact .still _
  | pulling fetches | pulled fetches =>
    rw [fetches.shown_eq]
    exact StepsResult.grows_nothing _
  | starting starts | started starts =>
    rw [starts.shown_eq]
    exact StepsResult.grows_nothing _
  | through | cancelled => exact ⟨List.prefix_rfl, by simp [shown]⟩
  | unresolved | succeeds | fails => exact StepsResult.grows_concat _ _ _
  | stopping stops =>
    rw [stops.shown_eq]
    exact .still _

theorem Fetches.paced (h : Fetches c agent own image events) (paced : own.Paced noted) :
    attempts (noted ++ events) = 0 := by
  rw [attempts_append]
  cases h <;> exact paced

theorem Starts.paced (h : Starts own image events) (paced : own.Paced noted) :
    attempts (noted ++ events) = 0 := by
  rw [attempts_append]
  cases h <;> exact paced

theorem Goes.paced (h : own.Goes c stage agent events own') (paced : own.Paced noted) :
    own'.Paced (noted ++ events) := by
  cases h with
  | host | resolved => simpa [Paced, Trial.made] using paced
  | pulling fetches => exact fetches.paced paced
  | starting starts => exact starts.paced paced
  | pulled fetches =>
    rw [← List.append_assoc]
    exact (attempts_append _ _).trans (fetches.paced paced)
  | started starts =>
    rw [← List.append_assoc]
    exact (attempts_append _ _).trans (starts.paced paced)
  | tries goes =>
    have before : attempts noted = _ := paced
    exact (attempts_append _ _).trans (before ▸ goes.tally)
  | succeeds ends =>
    have before : attempts noted = _ := paced
    exact (attempts_append _ _).trans (before ▸ ends.tally)
  | through | cancelled | unresolved | fails | stopping => trivial

/-- A turn of the steps leaves behind what an attempt has come to in it. -/
theorem Goes.concluded (h : own.Goes c stage agent events own') (calm : c.interrupt = false)
    (course : own.Course stage workflow noted erred) (paced : own.Paced noted)
    (concluded : Concluded c.engine.policy stage noted own.shown) :
    Concluded c.engine.policy stage (noted ++ events) own'.shown := by
  have grows := h.grows
  have next {step : Step} {todo : List Step} (ahead : Ahead stage noted (step :: todo)) :
      stage.steps[(delivered noted).length]? = some step := by
    obtain ⟨done, split, size⟩ := ahead
    simp [split, ← size]
  have here {outputs : List String} (so : outputs = texts (delivered noted)) (result : StepResult)
      {failure : Option StepError} (told : ∀ e, result = .error e → failure = some e) :
      StepsResult.Shows ⟨outputs ++ [result.text], failure⟩ (delivered noted).length result :=
    ⟨by simp [so, texts], told⟩
  cases h with
  | host | resolved | through | cancelled | unresolved => exact concluded.quiet grows (by simp [Quiet])
  | pulling fetches => exact concluded.quiet grows fetches.quiet
  | starting starts => exact concluded.quiet grows starts.quiet
  | stopping stops => exact concluded.quiet grows stops.quiet
  | pulled fetches => exact concluded.quiet grows (fetches.quiet.concat rfl)
  | started starts => exact concluded.quiet grows (starts.quiet.concat rfl)
  | tries goes => exact goes.concluded paced concluded
  | @succeeds _ _ _ _ _ output ends =>
    obtain ⟨⟨step, command, -, ahead⟩, outputs, -⟩ := course
    exact ends.concluded calm paced (next ahead) command concluded grows
      (here outputs (.ok output) (by simp))
  | @fails _ _ _ _ _ e ends =>
    obtain ⟨⟨step, command, -, ahead⟩, outputs, -⟩ := course
    exact ends.concluded calm paced (next ahead) command concluded grows
      (here outputs (.error e) (by simp))

theorem Ends.concluded (h : own.Ends c agent events result)
    (concluded : Concluded policy stage noted own.shown) :
    Concluded policy stage (noted ++ events) result := by
  cases h with
  | cancelled => exact concluded.quiet (StepsResult.grows_nothing _) (by simp [Quiet])
  | unpulled fetches =>
    rw [fetches.shown_eq] at concluded
    exact concluded.quiet (StepsResult.grows_nothing _) fetches.quiet
  | unstarted starts =>
    rw [starts.shown_eq] at concluded
    exact concluded.quiet (StepsResult.grows_nothing _) starts.quiet
  | host => exact concluded.quiet (.still _) (by simp [Quiet])
  | stopped stops =>
    rw [stops.shown_eq] at concluded
    exact concluded.quiet (.still _) (stops.quiet.concat rfl)

end OwnSteps

namespace StageRun

variable {inherited agent : Agent} {c : Context} {past : List Moment} {run : StageRun}
  {branches : Option StageResults}

/-- What the own steps of a stage have left behind as it has come so far. -/
def shown : StageRun → StepsResult
  | working _ _ _ own => own.shown
  | settled output outcome => ⟨output.steps?.getD [], outcome⟩
  | _ => ⟨[], none⟩

/-- The attempts of the step that is under way, if one is. -/
def Paced (noted : List Event) : StageRun → Prop
  | working _ _ _ own => own.Paced noted
  | _ => True

theorem Receipts.quiet (h : Receipts noted) : Quiet noted := by
  intro event mem
  obtain ⟨i, failed, rfl⟩ := h event mem
  rfl

theorem Receipts.attempts_eq (h : Receipts noted) : attempts noted = 0 := by
  unfold attempts
  induction noted with
  | nil => rfl
  | cons event rest ih =>
    obtain ⟨i, failed, rfl⟩ := h event List.mem_cons_self
    exact ih fun event mem => h event (List.mem_cons_of_mem _ mem)

theorem paced_ownSteps (h : Receipts noted) : Paced noted (ownSteps stage agent branches) :=
  ownSteps_cases branches (fun _ => trivial) h.attempts_eq

/-- A stage that does not interrupt a branch has it leave behind what its attempts have come to. -/
theorem Run.concluded (so : Run stage inherited c past run) (calm : c.interrupt = false) :
    run.Paced (marksAt c.place (records past)) ∧
      Concluded c.engine.policy stage (marksAt c.place (records past)) run.shown := by
  induction so with
  | begins c => exact ⟨trivial, .of_quiet (by simp [Quiet, marksAt]) _⟩
  | cancelled so ih => exact ih calm
  | @turn c past run run' path w w' news so moved noted ih =>
    have shape := so.shape
    have traced := so.traced
    have faithful := so.faithful
    obtain ⟨paced, concluded⟩ := ih calm
    have silent : w.Notes c.place [] w := .nothing rfl
    cases turned_of_move moved with
    | enters =>
      have idle : marksAt c.place (records past) = [] := traced
      have receipts : Receipts [] := by simp [Receipts]
      rw [marksAt_concat silent noted, idle, List.append_nil]
      exact ⟨enter_cases (fun _ => paced_ownSteps receipts) trivial, .of_quiet receipts.quiet _⟩
    | leaves all =>
      have receipts : Receipts (marksAt c.place (records past)) := traced
      rw [marksAt_concat silent noted, List.append_nil]
      exact ⟨leaveJoin_cases _ _ (fun _ _ _ => trivial) fun _ _ => paced_ownSteps receipts,
        .of_quiet receipts.quiet _⟩
    | works notes goes =>
      obtain ⟨rfl, rfl⟩ := shape
      obtain ⟨-, -, course⟩ := faithful
      rw [marksAt_concat notes noted]
      exact ⟨goes.paced paced, goes.concluded calm course paced concluded⟩
    | @settles _ _ branches _ _ _ result notes ends =>
      rw [marksAt_concat notes noted]
      refine ⟨trivial, ?_⟩
      have same : shown (settled (.ofParts branches (some result.outputs)) result.failure) =
          result := by
        cases branches <;> rfl
      rw [same]
      exact ends.concluded concluded
    | receives there =>
      have receipts : Receipts (marksAt c.place (records (past ++ [_]))) :=
        (so.turn moved noted).traced
      exact ⟨trivial, .of_quiet receipts.quiet _⟩
    | inside there unsettled inner =>
      have receipts : Receipts (marksAt c.place (records (past ++ [_]))) :=
        (so.turn moved noted).traced
      exact ⟨trivial, .of_quiet receipts.quiet _⟩

end StageRun

end PipelineRunner
