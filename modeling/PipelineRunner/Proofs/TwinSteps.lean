import Mathlib.Data.List.Forall2
import PipelineRunner.Proofs.RegistryRuns
import PipelineRunner.Proofs.Signatures
import PipelineRunner.Proofs.SteadyCalls
import PipelineRunner.Proofs.StepIdentity

/-! Two workflows that run the same pipeline, each in a world of its own. If calls are steady, and
it is as long since the one has begun as since the other, then a turn of the one does what the same
turn of the other does: it logs the same, sets timers that are due together, and goes on alike. Only
the identifiers of the workflows and of their containers differ. Here this is shown of the steps of
a stage, each by itself and one after the other. -/

namespace PipelineRunner

/-- Two workflows where calls are steady, with the instants at which they begin. -/
structure Twins (κ : Type) where
  engine : Engine
  registry : Registry
  conduct : Habits κ
  steady : conduct.Describes engine.runtime registry
  id : String
  id' : String
  start : Nat
  start' : Nat

/-- It is as long since the one has begun as since the other. -/
def Twins.Meet {κ : Type} (p : Twins κ) (t t' : Nat) : Prop := t + p.start' = t' + p.start

/-- What is logged when a container has been started. -/
def containerLine (stage container image : String) : String :=
  s!"Stage '{stage}' running in container {container} ({image})"

variable {κ : Type} {p : Twins κ}

/-- Entries that say the same, with the clock shifted and another name for a container of the same
kind. -/
inductive LogEntry.Alike (d : Habits κ) (start start' : Nat) : LogEntry → LogEntry → Prop where
  | line {t t' : Nat} (shift : t + start' = t' + start) (level : LogLevel) (message : String) :
    Alike d start start' ⟨.ofMilliseconds t, level, message⟩ ⟨.ofMilliseconds t', level, message⟩
  | container {t t' : Nat} {c c' : String} (shift : t + start' = t' + start)
      (kinds : d.kind c = d.kind c') (stage image : String) :
    Alike d start start' ⟨.ofMilliseconds t, .info, containerLine stage c image⟩
      ⟨.ofMilliseconds t', .info, containerLine stage c' image⟩

/-- Logs that say the same. -/
abbrev Twins.Logs (p : Twins κ) : List LogEntry → List LogEntry → Prop :=
  List.Forall₂ (LogEntry.Alike p.conduct p.start p.start')

namespace World

/-- Worlds in which the same has been logged for the one as for the other. -/
structure Alike (p : Twins κ) (w w' : World) : Prop where
  registry : w.registry = p.registry
  registry' : w'.registry = p.registry
  entries : p.Logs (w.entries p.id) (w'.entries p.id')

/-- And it is as long since the one has begun as since the other. -/
structure Abreast (p : Twins κ) (w w' : World) : Prop extends Alike p w w' where
  clocks : p.Meet w.clock w'.clock

variable {w w' : World} {place place' : Place}

theorem Abreast.note (abreast : Abreast p w w') {event event' : Event}
    (unlogged : event.isOutward = true) (unlogged' : event'.isOutward = true) :
    Abreast p (w.note place event) (w'.note place' event') where
  registry := abreast.registry
  registry' := abreast.registry'
  entries := by
    rw [entries_note unlogged, entries_note unlogged']
    exact abreast.entries
  clocks := abreast.clocks

theorem Abreast.enter (abreast : Abreast p w w') (state : WorkflowState) :
    Abreast p (w.note place (.entered state)) (w'.note place' (.entered state)) where
  registry := abreast.registry
  registry' := abreast.registry'
  entries := by
    rw [entries_enter, entries_enter]
    exact abreast.entries
  clocks := abreast.clocks

/-- Lines that say the same are logged alike. -/
theorem Abreast.log (abreast : Abreast p w w') {level : LogLevel} {message message' : String}
    (alike : LogEntry.Alike p.conduct p.start p.start' ⟨.ofMilliseconds w.clock, level, message⟩
      ⟨.ofMilliseconds w'.clock, level, message'⟩) :
    Abreast p (w.log place p.id level message) (w'.log place' p.id' level message') where
  registry := abreast.registry
  registry' := abreast.registry'
  entries := by
    rw [entries_log, entries_log]
    exact List.rel_append abreast.entries (.cons alike .nil)
  clocks := abreast.clocks

/-- Timers that are set together for as long are due together. -/
theorem Abreast.setTimer (abreast : Abreast p w w') (ms : Nat) :
    Abreast p (w.setTimer ms).1 (w'.setTimer ms).1 ∧
      p.Meet (w.setTimer ms).2.due (w'.setTimer ms).2.due := by
  refine ⟨⟨⟨abreast.registry, abreast.registry', ?_⟩, abreast.clocks⟩, ?_⟩
  · exact abreast.entries
  · have clocks : w.clock + p.start' = w'.clock + p.start := abreast.clocks
    simp only [Twins.Meet, World.setTimer]
    omega

theorem isDue_congr {timer timer' : Timer} (clocks : p.Meet w.clock w'.clock)
    (due : p.Meet timer.due timer'.due) : w.isDue timer = w'.isDue timer' := by
  simp only [Twins.Meet] at clocks due
  simp only [isDue, decide_eq_decide]
  omega

end World

/-! ### Work -/

/-- For whom the work of the one logs, and that of the other. -/
inductive Twins.Own (p : Twins κ) : Option String → Option String → Prop where
  | nobody : Own p none none
  | each : Own p (some p.id) (some p.id')

/-- Work that waits and shows the same. -/
structure Waiting.Alike {α β : Type} (p : Twins κ) (own own' : Option String) (view : α → β)
    (wait wait' : Waiting α) : Prop where
  due : p.Meet wait.timer.due wait'.timer.due
  rest : ∃ trace, wait.rest.Shows own view trace ∧ wait'.rest.Shows own' view trace

/-- Work that has come as far. -/
inductive Progress.Alike {α β : Type} (p : Twins κ) (own own' : Option String) (view : α → β) :
    Progress α → Progress α → Prop where
  | finished {a a' : α} (same : view a = view a') :
    Alike p own own' view (.finished a) (.finished a')
  | waits {wait wait' : Waiting α} (alike : wait.Alike p own own' view wait') :
    Alike p own own' view (.waits wait) (.waits wait')
  | crashed (reason : String) : Alike p own own' view (.crashed reason) (.crashed reason)

/-- And that in worlds that go on abreast. -/
structure Progress.Abreast {α β : Type} (p : Twins κ) (own own' : Option String) (view : α → β)
    (x y : World × Progress α) : Prop where
  worlds : x.1.Abreast p y.1
  far : x.2.Alike p own own' view y.2

section Work

variable {α β : Type} {own own' : Option String} {view : α → β} {work work' : Work α}
  {trace : Trace β} {w w' : World}

theorem Twins.Own.mine (own_ : p.Own own own') :
    (∀ other, own = some other → other = p.id) ∧ ∀ other, own' = some other → other = p.id' := by
  cases own_ <;> simp

theorem World.Abreast.perform (abreast : w.Abreast p w') (own_ : p.Own own own')
    (shows : work.Shows own view trace) (shows' : work'.Shows own' view trace)
    (place place' : Place) : Progress.Abreast p own own' view (World.perform place work w)
      (World.perform place' work' w') := by
  obtain ⟨clock, registry, entries, halt⟩ := World.perform_shows shows own_.mine.1 place w
  obtain ⟨clock', registry', entries', halt'⟩ := World.perform_shows shows' own_.mine.2 place' w'
  refine ⟨⟨⟨registry.trans abreast.registry, registry'.trans abreast.registry', ?_⟩, ?_⟩, ?_⟩
  · rw [entries, entries']
    refine List.rel_append abreast.entries ?_
    rw [List.forall₂_map_left_iff, List.forall₂_map_right_iff, List.forall₂_same]
    exact fun line _ => .line abreast.clocks line.1 line.2
  · rw [clock, clock']
    exact abreast.clocks
  · generalize (World.perform place work w).2 = progress at halt ⊢
    generalize (World.perform place' work' w').2 = progress' at halt' ⊢
    generalize trace.halt = trace at halt halt'
    have clocks : w.clock + p.start' = w'.clock + p.start := abreast.clocks
    cases halt with
    | finished a =>
      generalize same : view a = b at halt'
      cases halt'
      exact .finished same
    | crashed reason =>
      cases halt'
      exact .crashed reason
    | waits due rest =>
      cases halt' with
      | waits due' rest' =>
        refine .waits ⟨?_, _, rest, rest'⟩
        rw [due, due', Twins.Meet]
        omega

end Work

/-! ### Turns -/

/-- What is around a part of the one run, and where the same part of the other stands. Apart from
the place the same is around it. -/
structure Context.Twin (p : Twins κ) (c : Context) (place : Place) : Prop where
  engine : c.engine = p.engine
  workflow : c.place.workflow = p.id
  workflow' : place.workflow = p.id'

/-- Turns that come to the same. -/
inductive Turn.Alike {σ α : Type} (p : Twins κ) (kin : σ → σ → Prop) :
    Turn σ α → Turn σ α → Prop where
  | blocked : Alike p kin .blocked .blocked
  | moved {w w' : World} {s s' : σ} (abreast : w.Abreast p w') (kin_ : kin s s') :
    Alike p kin (.moved w s) (.moved w' s')
  | ended {w w' : World} (abreast : w.Abreast p w') (value : α) :
    Alike p kin (.ended w value) (.ended w' value)
  | crashed {w w' : World} (abreast : w.Abreast p w') (reason : String) (held held' : List String) :
    Alike p kin (.crashed w reason held) (.crashed w' reason held')

variable {c : Context} {place : Place} {w w' : World}

namespace Trial

/-- Phases of a step that has come as far in the one run as in the other. -/
inductive Phase.Alike (p : Twins κ) : Phase → Phase → Prop where
  | ready (made : Nat) : Alike p (.ready made) (.ready made)
  | calling (attempt : Nat) {deadline deadline' : Timer}
      {call call' : Waiting (Except Cause (Option String))}
      (deadlines : p.Meet deadline.due deadline'.due)
      (calls : call.Alike p (some p.id) (some p.id') (fun answer => answer) call') :
    Alike p (.calling attempt deadline call) (.calling attempt deadline' call')
  | pausing (made : Nat) {timer timer' : Timer} (timers : p.Meet timer.due timer'.due) :
    Alike p (.pausing made timer) (.pausing made timer')

/-- The same step in both runs, having come as far. -/
structure Alike (p : Twins κ) (t t' : Trial) : Prop where
  command : t.command = t'.command
  binding : t.binding = t'.binding
  params : declared t.params = declared t'.params
  containers : (t.params.get? containerKey).map p.conduct.kind =
    (t'.params.get? containerKey).map p.conduct.kind
  signed : t.Signed p.id
  signed' : t'.Signed p.id'
  phase : t.phase.Alike p t'.phase

variable {t t' : Trial}

theorem Alike.retry (alike : t.Alike p t') (abreast : w.Abreast p w') (attempt : Nat)
    (e : StepError) : (t.retry c attempt e w).Alike p (Trial.Alike p)
      (t'.retry { c with place } attempt e w') := by
  unfold Trial.retry
  dsimp only
  split
  · exact .ended abreast _
  · obtain ⟨later, due⟩ := abreast.setTimer (c.engine.policy.backoff attempt).millisecondsUp
    exact .moved later { alike with phase := .pausing attempt due }

/-- A call goes on alike, whether it has its deadline or gets it now. -/
theorem Alike.follow (alike : t.Alike p t') (attempt : Nat) {deadline deadline' : Option Timer}
    (deadlines : Option.Rel (fun s s' => p.Meet s.due s'.due) deadline deadline')
    {x y : World × Progress (Except Cause (Option String))}
    (performed : Progress.Abreast p (some p.id) (some p.id') (fun answer => answer) x y) :
    (t.follow c attempt deadline x).Alike p (Trial.Alike p)
      (t'.follow { c with place } attempt deadline' y) := by
  obtain ⟨w, progress⟩ := x
  obtain ⟨w', progress'⟩ := y
  have abreast : w.Abreast p w' := performed.worlds
  cases performed.far with
  | crashed reason => exact .crashed abreast reason _ _
  | waits calls =>
    cases deadlines with
    | some due => exact .moved abreast { alike with phase := .calling attempt due calls }
    | none =>
      obtain ⟨later, due⟩ := abreast.setTimer c.engine.policy.attemptTimeout.millisecondsUp
      exact .moved later { alike with phase := .calling attempt due calls }
  | @finished answer answer' same =>
    obtain rfl : answer = answer' := same
    have answered :
        (w.note c.place (.answered answer)).Abreast p (w'.note place (.answered answer)) :=
      abreast.note rfl rfl
    cases answer with
    | ok output => exact .ended answered _
    | error cause =>
      simp only [Trial.follow, alike.binding, alike.command]
      exact alike.retry answered _ _

theorem Alike.begin (alike : t.Alike p t') (abreast : w.Abreast p w') (attempt : Nat) :
    (t.begin c attempt w).Alike p (Trial.Alike p) (t'.begin { c with place } attempt w') := by
  unfold Trial.begin
  dsimp only
  rw [abreast.registry, abreast.registry', ← alike.binding, ← alike.command]
  split
  next e rejected => exact alike.retry abreast _ _
  next registration reached =>
    obtain ⟨mem, name⟩ := Registry.of_reach reached
    have shows := p.steady.call registration mem t.binding.method t.params p.id alike.signed
    have shows' := p.steady.call registration mem t.binding.method t'.params p.id' alike.signed'
    rw [← alike.params, ← alike.containers] at shows'
    exact alike.follow attempt .none ((abreast.note rfl rfl).perform .each shows shows' _ _)

theorem Alike.move (alike : t.Alike p t') (abreast : w.Abreast p w') :
    (t.move c w).Alike p (Trial.Alike p) (t'.move { c with place } w') := by
  obtain ⟨command, params, binding, phase⟩ := t
  obtain ⟨command', params', binding', phase'⟩ := t'
  obtain rfl : command = command' := alike.command
  have abandoned : (w.note c.place .abandoned).Abreast p (w'.note place .abandoned) :=
    abreast.note rfl rfl
  cases alike.phase with
  | ready made =>
    simp only [Trial.move]
    split
    · exact .ended abreast _
    · exact alike.begin abreast _
  | calling attempt deadlines calls =>
    obtain ⟨due, trace, shows, shows'⟩ := id calls
    simp only [Trial.move, World.isDue_congr abreast.clocks due,
      World.isDue_congr abreast.clocks deadlines]
    split
    · exact alike.follow attempt (.some deadlines) (abreast.perform .each shows shows' _ _)
    split
    · exact .ended abandoned _
    split
    · exact alike.retry abandoned _ _
    · exact .blocked
  | pausing made timers =>
    simp only [Trial.move, World.isDue_congr abreast.clocks timers]
    split
    · exact .ended abreast _
    split
    · exact .moved abreast { alike with phase := .ready made }
    · exact .blocked

theorem Alike.isAwake (alike : t.Alike p t') (clocks : p.Meet w.clock w'.clock) :
    t.isAwake c w = t'.isAwake { c with place } w' := by
  obtain ⟨command, params, binding, phase⟩ := t
  obtain ⟨command', params', binding', phase'⟩ := t'
  cases alike.phase with
  | ready made => rfl
  | calling attempt deadlines calls =>
    simp only [Trial.isAwake, World.isDue_congr clocks calls.due,
      World.isDue_congr clocks deadlines]
  | pausing made timers => simp only [Trial.isAwake, World.isDue_congr clocks timers]

theorem Alike.timers (alike : t.Alike p t') :
    List.Forall₂ (fun s s' => p.Meet s.due s'.due) t.timers t'.timers := by
  obtain ⟨command, params, binding, phase⟩ := t
  obtain ⟨command', params', binding', phase'⟩ := t'
  cases alike.phase with
  | ready made => exact .nil
  | calling attempt deadlines calls => exact .cons calls.due (.cons deadlines .nil)
  | pausing made timers => exact .cons timers .nil

end Trial

/-! ### Own steps -/

namespace OwnSteps

/-- The steps of a stage that have come as far in the one run as in the other, in containers of one
kind. -/
inductive Alike (p : Twins κ) : OwnSteps → OwnSteps → Prop where
  | entering : Alike p .entering .entering
  | pulling (image : String) {wait wait' : Waiting (Except Cause Unit)}
      (waits : wait.Alike p none none (fun answer => answer) wait') :
    Alike p (.pulling image wait) (.pulling image wait')
  | pulled (image : String) : Alike p (.pulled image) (.pulled image)
  | starting (image : String) {wait wait' : Waiting (Except Cause String)}
      (waits : wait.Alike p none none (Except.map p.conduct.kind) wait') :
    Alike p (.starting image wait) (.starting image wait')
  | between {container container' : Option String}
      (kinds : container.map p.conduct.kind = container'.map p.conduct.kind) (todo : List Step)
      (outputs : List String) :
    Alike p (.between container todo outputs) (.between container' todo outputs)
  | trying {container container' : Option String}
      (kinds : container.map p.conduct.kind = container'.map p.conduct.kind) {t t' : Trial}
      (trials : t.Alike p t') (todo : List Step) (outputs : List String) :
    Alike p (.trying container t todo outputs) (.trying container' t' todo outputs)
  | leaving {container container' : Option String}
      (kinds : container.map p.conduct.kind = container'.map p.conduct.kind)
      (result : StepsResult) :
    Alike p (.leaving container result) (.leaving container' result)
  | stopping {container container' : String} {wait wait' : Waiting (Except Cause Unit)}
      (waits : wait.Alike p none none (fun _ => ()) wait') (result : StepsResult) :
    Alike p (.stopping container wait result) (.stopping container' wait' result)

variable {stage : Stage} {agent : Agent} {own own' : OwnSteps}

theorem followPull_alike (image : String) {x y : World × Progress (Except Cause Unit)}
    (performed : Progress.Abreast p none none (fun answer => answer) x y) :
    (followPull c image x).Alike p (OwnSteps.Alike p) (followPull { c with place } image y) := by
  obtain ⟨w, progress⟩ := x
  obtain ⟨w', progress'⟩ := y
  have abreast : w.Abreast p w' := performed.worlds
  cases performed.far with
  | crashed reason => exact .crashed abreast reason _ _
  | waits waits => exact .moved abreast (.pulling image waits)
  | @finished answer answer' same =>
    obtain rfl : answer = answer' := same
    cases answer with
    | error cause => exact .ended abreast _
    | ok done => exact .moved (abreast.note rfl rfl) (.pulled image)

theorem followStart_alike (around : c.Twin p place) (image : String)
    {x y : World × Progress (Except Cause String)}
    (performed : Progress.Abreast p none none (Except.map p.conduct.kind) x y) :
    (followStart c stage image x).Alike p (OwnSteps.Alike p)
      (followStart { c with place } stage image y) := by
  obtain ⟨w, progress⟩ := x
  obtain ⟨w', progress'⟩ := y
  have abreast : w.Abreast p w' := performed.worlds
  cases performed.far with
  | crashed reason => exact .crashed abreast reason _ _
  | waits waits => exact .moved abreast (.starting image waits)
  | @finished answer answer' same =>
    cases answer with
    | error cause =>
      cases answer' with
      | error cause' =>
        cases same
        exact .ended abreast _
      | ok container' => cases same
    | ok container =>
      cases answer' with
      | error cause' => cases same
      | ok container' =>
        have kinds : p.conduct.kind container = p.conduct.kind container' := Except.ok.inj same
        simp only [followStart]
        rw [around.workflow, around.workflow']
        exact .moved ((abreast.note rfl rfl).log (.container abreast.clocks kinds _ _))
          (.between (by simp [kinds]) _ _)

theorem followStop_alike {container container' : String} (result : StepsResult)
    {x y : World × Progress (Except Cause Unit)}
    (performed : Progress.Abreast p none none (fun _ => ()) x y) :
    (followStop c container result x).Alike p (OwnSteps.Alike p)
      (followStop { c with place } container' result y) := by
  obtain ⟨w, progress⟩ := x
  obtain ⟨w', progress'⟩ := y
  have abreast : w.Abreast p w' := performed.worlds
  cases performed.far with
  | crashed reason => exact .crashed abreast reason _ _
  | waits waits => exact .moved abreast (.stopping waits result)
  | finished => exact .ended (abreast.note rfl rfl) _

/-- Steps begin alike: they are told the same, but for the names of their workflows and their
containers. -/
theorem beginStep_alike (around : c.Twin p place) (abreast : w.Abreast p w')
    {container container' : Option String}
    (kinds : container.map p.conduct.kind = container'.map p.conduct.kind) (step : Step)
    (todo : List Step) (outputs : List String) :
    (beginStep c container step todo outputs w).Alike p (OwnSteps.Alike p)
      (beginStep { c with place } container' step todo outputs w') := by
  unfold beginStep
  dsimp only
  rw [abreast.registry, abreast.registry']
  split
  · exact .moved abreast (.leaving kinds _)
  split
  next => exact .moved abreast (.leaving kinds _)
  next binding resolved =>
    refine .moved abreast (.trying kinds ?_ _ _)
    refine ⟨rfl, rfl, ?_, ?_, ?_, ?_, .ready 0⟩
    · rw [declared_paramsWithin, declared_paramsWithin]
    · rw [step.get?_containerKey, step.get?_containerKey]
      cases container <;> cases container' <;> simp_all
    · exact around.workflow ▸ step.get?_workflowKey _ _
    · exact around.workflow' ▸ step.get?_workflowKey _ _

theorem followTrial_alike {container container' : Option String}
    (kinds : container.map p.conduct.kind = container'.map p.conduct.kind) (todo : List Step)
    (outputs : List String) {turn turn' : Turn Trial StepResult}
    (turns : turn.Alike p (Trial.Alike p) turn') :
    (followTrial container todo outputs turn).Alike p (OwnSteps.Alike p)
      (followTrial container' todo outputs turn') := by
  cases turns with
  | blocked => exact .blocked
  | moved abreast trials => exact .moved abreast (.trying kinds trials _ _)
  | crashed abreast reason => exact .crashed abreast reason _ _
  | ended abreast result =>
    cases result with
    | ok output => exact .moved abreast (.between kinds _ _)
    | error e => exact .moved abreast (.leaving kinds _)

theorem Alike.move (alike : own.Alike p own') (around : c.Twin p place) (abreast : w.Abreast p w') :
    (OwnSteps.move c stage agent w own).Alike p (OwnSteps.Alike p)
      (OwnSteps.move { c with place } stage agent w' own') := by
  have steady := around.engine ▸ p.steady
  cases alike with
  | entering =>
    simp only [OwnSteps.move]
    split
    next => exact .moved abreast (.between rfl _ _)
    next image _ =>
      split
      · exact .ended abreast _
      · have pulls := steady.pull (Image.normalize image)
        exact followPull_alike image ((abreast.note rfl rfl).perform .nobody pulls pulls _ _)
  | pulling image waits =>
    obtain ⟨due, trace, shows, shows'⟩ := waits
    simp only [OwnSteps.move, World.isDue_congr abreast.clocks due]
    split
    · exact followPull_alike image (abreast.perform .nobody shows shows' _ _)
    · exact .blocked
  | pulled image =>
    have starts := steady.start (Image.normalize image)
    exact followStart_alike around image ((abreast.note rfl rfl).perform .nobody starts starts _ _)
  | starting image waits =>
    obtain ⟨due, trace, shows, shows'⟩ := waits
    simp only [OwnSteps.move, World.isDue_congr abreast.clocks due]
    split
    · exact followStart_alike around image (abreast.perform .nobody shows shows' _ _)
    · exact .blocked
  | between kinds todo outputs =>
    cases todo with
    | nil => exact .moved abreast (.leaving kinds _)
    | cons step todo => exact beginStep_alike around abreast kinds step todo outputs
  | trying kinds trials todo outputs => exact followTrial_alike kinds _ _ (trials.move abreast)
  | @leaving container container' kinds result =>
    cases container with
    | none =>
      cases container' with
      | none => exact .ended abreast _
      | some _ => cases kinds
    | some container =>
      cases container' with
      | none => cases kinds
      | some container' =>
        have stops := steady.stop container
        have stops' := steady.stop container'
        rw [← Option.some.inj kinds] at stops'
        exact followStop_alike result ((abreast.note rfl rfl).perform .nobody stops stops' _ _)
  | stopping waits result =>
    obtain ⟨due, trace, shows, shows'⟩ := waits
    simp only [OwnSteps.move, World.isDue_congr abreast.clocks due]
    split
    · exact followStop_alike result (abreast.perform .nobody shows shows' _ _)
    · exact .blocked

theorem Alike.isAwake (alike : own.Alike p own') (clocks : p.Meet w.clock w'.clock) :
    own.isAwake c w = own'.isAwake { c with place } w' := by
  cases alike with
  | pulling image waits | starting image waits | stopping waits result =>
    exact World.isDue_congr clocks waits.due
  | trying kinds trials todo outputs => exact trials.isAwake clocks
  | _ => rfl

theorem Alike.timers (alike : own.Alike p own') :
    List.Forall₂ (fun s s' => p.Meet s.due s'.due) own.timers own'.timers := by
  cases alike with
  | pulling image waits | starting image waits | stopping waits result =>
    exact .cons waits.due .nil
  | trying kinds trials todo outputs => exact trials.timers
  | _ => exact .nil

end OwnSteps

end PipelineRunner
