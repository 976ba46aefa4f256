import PipelineRunner.Proofs.ExecutionRuns
import PipelineRunner.Proofs.StageTraces
import PipelineRunner.Proofs.StopAnswers

/-! Containers are scoped to the stages they are started for. Whatever happens to the steps of a
stage, its container comes up after its image has been fetched, calls are made while it is up, and
it is stopped exactly once, before the end of the stage is told to anyone. -/

namespace PipelineRunner

/-- Whether a call is in flight behind an event. -/
def Event.flight : Bool → Event → Bool
  | _, .called .. => true
  | _, .answered _ => false
  | _, .abandoned => false
  | before, _ => before

/-- Whether a call is in flight behind some events. -/
def inFlight (events : List Event) : Bool := events.foldl Event.flight false

/-- What has to stand before an event of a stage with this agent. -/
def Scoped (agent : Agent) (here : List Event) : Event → Prop
  | .pull image => agent.image?.map Image.normalize = some image ∧ ∀ other, .pull other ∉ here
  | .pulled image => .pull image ∈ here
  | .start image => .pulled image ∈ here ∧ ∀ other, .start other ∉ here
  | .started image _ => .start image ∈ here
  | .called .. =>
    (agent.image?.isSome = true → ∃ image id, .started image id ∈ here) ∧
      (∀ id, .stop id ∉ here) ∧ inFlight here = false
  | .stop id =>
    (∃ image, .started image id ∈ here) ∧ .stop id ∉ here ∧ inFlight here = false
  | .stopped id => .stop id ∈ here
  | _ => True

/-- Every event has before it what has to stand there. -/
def WellScoped (agent : Agent) (events : List Event) : Prop :=
  ∀ here event rest, events = here ++ event :: rest → Scoped agent here event

/-- Whether the own steps of a stage are under way. -/
def StageRun.isWorking : StageRun → Bool
  | working .. => true
  | _ => false

/-- Whatever has been started has been stopped. -/
def Emptied (events : List Event) : Prop :=
  ∀ image id, .started image id ∈ events → .stop id ∈ events ∧ .stopped id ∈ events

namespace WellScoped

variable {agent : Agent} {events : List Event} {event : Event}

theorem nil : WellScoped agent [] := by
  intro here event rest h
  simp at h

theorem concat (h : WellScoped agent events) (last : Scoped agent events event) :
    WellScoped agent (events ++ [event]) := by
  intro here event' rest split
  rcases List.eq_nil_or_concat rest with rfl | ⟨init, final, rfl⟩
  · obtain ⟨rfl, he⟩ := List.append_inj' split rfl
    obtain rfl := (List.cons.inj he).1
    exact last
  · rw [List.concat_eq_append, ← List.cons_append, ← List.append_assoc] at split
    exact h here event' init (List.append_inj' split rfl).1

theorem of_append (more : List Event) (h : WellScoped agent (events ++ more)) :
    WellScoped agent events := by
  rintro here event rest rfl
  exact h here event (rest ++ more) (by simp)

end WellScoped

/-- Steps may be called behind these events. -/
structure Ready (agent : Agent) (container : Option String) (events : List Event) : Prop where
  kept : WellScoped agent events
  idle : inFlight events = false
  unstopped : ∀ id, .stop id ∉ events
  docker : agent.image?.isSome = container.isSome
  started : ∀ id, container = some id → ∃ image, .started image id ∈ events

variable {stage : Stage} {agent : Agent} {workflow id : String} {container : Option String}
  {receipts opened calls events : List Event} {b : Bool}

namespace StageRun

theorem Receipts.kept (received : Receipts receipts) : WellScoped agent receipts := by
  rintro here event rest rfl
  obtain ⟨i, failed, rfl⟩ := received event (by simp)
  trivial

theorem Receipts.idle (received : Receipts receipts) : inFlight receipts = false := by
  unfold inFlight
  induction receipts with
  | nil => rfl
  | cons event rest ih =>
    obtain ⟨i, failed, rfl⟩ := received event List.mem_cons_self
    exact ih fun event mem => received event (List.mem_cons_of_mem _ mem)

theorem Receipts.absent {event : Event} (received : Receipts receipts)
    (other : ∀ i failed, event ≠ .received i failed) : event ∉ receipts := by
  intro mem
  obtain ⟨i, failed, rfl⟩ := received event mem
  exact other i failed rfl

/-- Once a container has come up, and at once on the host, steps may be called. -/
theorem Receipts.ready (received : Receipts receipts) (open_ : Opened agent container opened) :
    Ready agent container (receipts ++ opened) := by
  have no_stop (other : String) : Event.stop other ∉ receipts := received.absent (by simp)
  cases open_ with
  | host bare =>
    rw [List.append_nil]
    exact ⟨received.kept, received.idle, no_stop, by simp [bare], by simp⟩
  | @container image docker id =>
    have no_pull (other : String) : Event.pull other ∉ receipts := received.absent (by simp)
    have no_start (other : String) : Event.start other ∉ receipts := received.absent (by simp)
    have kept : WellScoped agent
        (receipts ++ [.pull (Image.normalize image)] ++ [.pulled (Image.normalize image)] ++
          [.start (Image.normalize image)] ++ [.started (Image.normalize image) id]) := by
      refine (((received.kept.concat ?_).concat ?_).concat ?_).concat ?_
      · exact ⟨by simp [docker], no_pull⟩
      · simp [Scoped]
      · simp [Scoped, no_start]
      · simp [Scoped]
    refine ⟨by simpa [opening] using kept, ?_, ?_, by simp [docker], ?_⟩
    · have idle := received.idle
      simpa [inFlight, opening, Event.flight] using idle
    · simp [opening, no_stop]
    · rintro id ⟨⟩
      exact ⟨Image.normalize image, by simp [opening]⟩

end StageRun

namespace Ready

/-- Calls keep to where they may be made. -/
theorem goesOn (ready : Ready agent container events)
    (called : Calls stage workflow container b calls) :
    WellScoped agent (events ++ calls) ∧ inFlight (events ++ calls) = b ∧
      ∀ id, .stop id ∉ events ++ calls := by
  induction called with
  | nothing => simpa using ⟨ready.kept, ready.idle, ready.unstopped⟩
  | called called mem plugin method builtin ih =>
    obtain ⟨kept, idle, unstopped⟩ := ih
    rw [← List.append_assoc]
    refine ⟨kept.concat ⟨?_, unstopped, idle⟩, by simp [inFlight, Event.flight], ?_⟩
    · intro docker
      obtain ⟨id, here⟩ := Option.isSome_iff_exists.mp (ready.docker ▸ docker)
      obtain ⟨image, started⟩ := ready.started id here
      exact ⟨image, id, List.mem_append_left _ started⟩
    · simpa using unstopped
  | answered called answer ih =>
    obtain ⟨kept, -, unstopped⟩ := ih
    rw [← List.append_assoc]
    exact ⟨kept.concat trivial, by simp [inFlight, Event.flight], by simpa using unstopped⟩
  | abandoned called ih =>
    obtain ⟨kept, -, unstopped⟩ := ih
    rw [← List.append_assoc]
    exact ⟨kept.concat trivial, by simp [inFlight, Event.flight], by simpa using unstopped⟩

/-- A container is stopped behind the last call. -/
theorem stop (ready : Ready agent (some id) events)
    (called : Calls stage workflow (some id) false calls) :
    WellScoped agent (events ++ calls ++ [.stop id, .stopped id]) := by
  obtain ⟨kept, idle, unstopped⟩ := ready.goesOn called
  obtain ⟨image, started⟩ := ready.started id rfl
  have stop : WellScoped agent (events ++ calls ++ [.stop id]) :=
    kept.concat ⟨⟨image, List.mem_append_left _ started⟩, unstopped id, idle⟩
  have last : Scoped agent (events ++ calls ++ [.stop id]) (.stopped id) := by simp [Scoped]
  simpa using stop.concat last

end Ready

/-- A container need not come up all the way. -/
theorem StageRun.Receipts.partly {image : String} (received : Receipts receipts)
    (docker : agent.image? = some image) :
    WellScoped agent (receipts ++ [.pull (Image.normalize image)]) ∧
      WellScoped agent
        (receipts ++ [.pull (Image.normalize image), .pulled (Image.normalize image)]) ∧
      WellScoped agent
        (receipts ++ [.pull (Image.normalize image), .pulled (Image.normalize image),
          .start (Image.normalize image)]) := by
  have whole := (received.ready (.container docker "")).kept
  rw [opening] at whole
  refine ⟨?_, ?_, ?_⟩
  · exact WellScoped.of_append [_, _, _] (by simpa using whole)
  · exact WellScoped.of_append [_, _] (by simpa using whole)
  · exact WellScoped.of_append [_] (by simpa using whole)

namespace StageRun

/-- What is noted at a stage is well scoped, however far it has come. -/
theorem Traced.wellScoped {run : StageRun} (traced : run.Traced stage agent workflow events) :
    WellScoped agent events := by
  cases run with
  | fresh =>
    obtain rfl : events = [] := traced
    exact .nil
  | joining => exact Receipts.kept traced
  | working s a branches own =>
    obtain ⟨receipts, noted, rfl, received, custody⟩ := traced
    cases custody with
    | entering => simpa using received.kept
    | pulling docker wait => exact (received.partly docker).1
    | pulled docker => exact (received.partly docker).2.1
    | starting docker wait => exact (received.partly docker).2.2
    | between open_ called | trying open_ called | leaving open_ called =>
      rw [← List.append_assoc]
      exact ((received.ready open_).goesOn called).1
    | @stopping id opened calls _ open_ called wait =>
      refine WellScoped.of_append [.stopped id] ?_
      simpa using (received.ready open_).stop called
  | settled output failure =>
    obtain ⟨receipts, noted, rfl, received, closed⟩ := traced
    cases closed with
    | untouched => simpa using received.kept
    | unpulled docker => exact (received.partly docker).1
    | unstarted docker => exact (received.partly docker).2.2
    | host bare called => simpa using ((received.ready (.host bare)).goesOn called).1
    | stopped open_ called => simpa using (received.ready open_).stop called
  | received => exact traced.elim

end StageRun

/-! ### What has been started has been stopped -/

theorem Calls.unstarted (called : Calls stage workflow container b calls) (image id : String) :
    Event.started image id ∉ calls := by
  induction called with
  | nothing => simp
  | called called mem plugin method builtin ih => simpa using ih
  | answered called answer ih => simpa using ih
  | abandoned called ih => simpa using ih

theorem Opened.container_of_started (open_ : Opened agent container opened) {image : String}
    (started : Event.started image id ∈ opened) : container = some id := by
  cases open_ with
  | host => cases started
  | container docker id' => simp_all [opening]

theorem Emptied.of_unstarted (h : ∀ image id, Event.started image id ∉ events) :
    Emptied events := fun image id started => absurd started (h image id)

namespace StageRun

theorem Receipts.unstarted (received : Receipts receipts) (image id : String) :
    Event.started image id ∉ receipts := received.absent (by simp)

theorem Receipts.emptied (received : Receipts receipts)
    (closed : Closed stage agent workflow events) : Emptied (receipts ++ events) := by
  have none_received := received.unstarted
  cases closed with
  | untouched => exact .of_unstarted (by simpa using none_received)
  | unpulled docker => exact .of_unstarted (by simpa using none_received)
  | unstarted docker => exact .of_unstarted (by simpa using none_received)
  | host bare called =>
    refine .of_unstarted fun image id => ?_
    simpa using ⟨none_received image id, called.unstarted image id⟩
  | @stopped own opened calls open_ called =>
    intro image id started
    have inside : Event.started image id ∈ opened := by
      simpa [none_received image id, called.unstarted image id] using started
    obtain rfl : own = id := Option.some.inj (open_.container_of_started inside)
    simp

/-- Nothing is left running by a stage whose own steps are not under way. -/
theorem Traced.emptied {run : StageRun} (traced : run.Traced stage agent workflow events)
    (idle : run.isWorking = false) : Emptied events := by
  cases run with
  | fresh =>
    obtain rfl : events = [] := traced
    exact .of_unstarted (by simp)
  | joining => exact .of_unstarted (Receipts.unstarted traced)
  | working => cases idle
  | settled output failure =>
    obtain ⟨receipts, noted, rfl, received, closed⟩ := traced
    exact received.emptied closed
  | received => exact traced.elim

end StageRun

/-- The identifier of a container that has come up. -/
def Event.startedId? : Event → Option String
  | .started _ id => some id
  | _ => none

theorem Event.startedId?_eq_some {event : Event} :
    event.startedId? = some id ↔ ∃ image, event = .started image id := by
  cases event <;> simp [startedId?]

/-- The runtime has not handed out an identifier twice. -/
def DistinctIds (records : List Record) : Prop :=
  (records.filterMap fun r => r.event.startedId?).Nodup

instance (records : List Record) : Decidable (DistinctIds records) :=
  inferInstanceAs (Decidable (List.Nodup _))

theorem DistinctIds.eq {records : List Record} {r s : Record} (distinct : DistinctIds records)
    (hr : r ∈ records) (hs : s ∈ records) (started : r.event.startedId? = some id)
    (again : s.event.startedId? = some id) : r = s := by
  unfold DistinctIds at distinct
  induction records with
  | nil => cases hr
  | cons first rest ih =>
    have apart (r : Record) (mem : r ∈ rest) (hid : r.event.startedId? = some id) :
        first.event.startedId? ≠ some id := by
      intro same
      simp only [List.filterMap_cons, same, List.nodup_cons] at distinct
      exact distinct.1 (List.mem_filterMap.mpr ⟨r, mem, hid⟩)
    rcases List.mem_cons.mp hr with rfl | r_later <;> rcases List.mem_cons.mp hs with rfl | s_later
    · rfl
    · exact absurd started (apart s s_later again)
    · exact absurd again (apart r r_later started)
    · refine ih ?_ r_later s_later
      rw [List.filterMap_cons] at distinct
      split at distinct
      · exact distinct
      · exact (List.nodup_cons.mp distinct).2

namespace Execution

variable {engine : Engine} {pipeline : Pipeline} {properties : Properties} {state : StateCell}
  {past : List Moment} {e : Execution} {around : Agent} {path : List Nat}

/-- What is noted at the place of a stage fits how far it has come. -/
theorem Run.traced (so : Run engine pipeline properties state past e)
    (known : properties.workflowId = .ok workflow)
    (declared : pipeline.stageAt? path = some (stage, around)) :
    ∃ c run, Stands engine e path stage around c run (pastAt past path) ∧
      run.Traced stage (stage.effectiveAgent around) workflow
        (marksAt ⟨workflow, path⟩ (records past)) := by
  cases path with
  | nil => cases declared
  | cons i way =>
    obtain ⟨c, run, inner, -, place, stands⟩ := so.descend known declared
    have traced := inner.traced
    rw [place, ← so.marksAt_pastAt known] at traced
    exact ⟨c, run, stands, traced⟩

/-- Every event of a run has before it at its stage what has to stand there. -/
theorem Run.scoped (so : Run engine pipeline properties state past e) {before after : List Record}
    {r : Record} (split : records past = before ++ r :: after)
    (notable : r.event.isAside = false) :
    (∃ state, r.event = .entered state) ∨
      ∃ stage around, pipeline.stageAt? r.place.path = some (stage, around) ∧
        Scoped (stage.effectiveAgent around) (marksAt r.place before) r.event := by
  have mem : r ∈ records past := by simp [split]
  rcases so.located mem notable with whole | ⟨workflow, i, way, stage, around, known, place, there⟩
  · exact .inl whole
  obtain ⟨c, run, -, traced⟩ := so.traced known there
  refine .inr ⟨stage, around, by simpa [place] using there, ?_⟩
  refine traced.wellScoped (marksAt r.place before) r.event (marksAt r.place after) ?_
  rw [← place, split, marksAt_split notable]

/-- Nothing is left running by a stage whose own steps are not under way. -/
theorem Run.emptied (so : Run engine pipeline properties state past e)
    (idle : ∀ run, e.stageAt? path = some run → run.isWorking = false) :
    Emptied (marksAt ⟨workflow, path⟩ (records past)) := by
  intro image id started
  obtain ⟨r, mem, place, event, notable⟩ := exists_of_mem_marksAt started
  rcases so.located mem (event ▸ notable) with
    ⟨state, entered⟩ | ⟨workflow', i, way, stage, around, known, place', there⟩
  · cases event.symm.trans entered
  · obtain ⟨rfl, rfl⟩ : workflow = workflow' ∧ path = i :: way := by
      simpa using place.symm.trans place'
    obtain ⟨c, run, stands, traced⟩ := so.traced known there
    refine traced.emptied ?_ image id started
    cases stands with
    | unborn => rfl
    | there here => exact idle _ here
    | through => rfl

/-- Behind a stop there was none of the same container. -/
theorem Run.unstopped_before (so : Run engine pipeline properties state past e)
    (distinct : DistinctIds (records past)) {before after : List Record} {s : Record}
    (split : records past = before ++ s :: after) (stop : s.event = .stop id) :
    ∀ r ∈ before, r.event ≠ .stop id := by
  have started_before {before after : List Record} {s : Record}
      (split : records past = before ++ s :: after) (stop : s.event = .stop id) :
      (∃ r ∈ before, r.place = s.place ∧ r.event.startedId? = some id) ∧
        .stop id ∉ marksAt s.place before := by
    rcases so.scoped split (by simp [stop, Event.isAside]) with ⟨state, entered⟩ | ⟨_, _, -, here⟩
    · cases stop.symm.trans entered
    · rw [stop] at here
      obtain ⟨⟨image, started⟩, unstopped, -⟩ := here
      obtain ⟨r, mem, place, event, -⟩ := exists_of_mem_marksAt started
      exact ⟨⟨r, mem, place, Event.startedId?_eq_some.mpr ⟨image, event⟩⟩, unstopped⟩
  intro r mem again
  obtain ⟨⟨first, first_mem, first_place, first_started⟩, unstopped⟩ := started_before split stop
  obtain ⟨earlier, between, rfl⟩ := List.append_of_mem mem
  have split' : records past = earlier ++ r :: (between ++ s :: after) := by simpa using split
  obtain ⟨⟨other, other_mem, other_place, other_started⟩, -⟩ := started_before split' again
  obtain rfl : first = other := by
    refine distinct.eq ?_ ?_ first_started other_started
    · rw [split]
      exact List.mem_append_left _ first_mem
    · rw [split']
      exact List.mem_append_left _ other_mem
  refine unstopped (again ▸ ?_)
  rw [← first_place, other_place]
  exact mem_marksAt mem (by simp [again, Event.isAside])

/-- Each container that has been started is stopped exactly once by the end of the run. -/
theorem Run.stopped_once (so : Run engine pipeline properties state past e)
    (ended : e.result?.isSome = true) (distinct : DistinctIds (records past)) {r : Record}
    {image : String} (mem : r ∈ records past) (started : r.event = .started image id) :
    ∃ before s after, records past = before ++ s :: after ∧ s.place = r.place ∧
      s.event = .stop id ∧ ∀ other ∈ before ++ after, other.event ≠ .stop id := by
  have still (run : StageRun) : e.stageAt? r.place.path ≠ some run := by
    intro there
    cases hp : r.place.path with
    | nil => simp [stageAt?, hp] at there
    | cons i way =>
      rw [hp] at there
      obtain ⟨_, _, _, _, _, phase, -⟩ := stageAt?_eq_some there
      simp [result?, phase] at ended
  have emptied : Emptied (marksAt ⟨r.place.workflow, r.place.path⟩ (records past)) :=
    so.emptied fun run there => absurd there (still run)
  have notable : r.event.isAside = false := by simp [started, Event.isAside]
  obtain ⟨stopped, -⟩ := emptied image id (started ▸ mem_marksAt mem notable)
  obtain ⟨s, s_mem, place, stop, -⟩ := exists_of_mem_marksAt stopped
  obtain ⟨before, after, split⟩ := List.append_of_mem s_mem
  refine ⟨before, s, after, split, place, stop, ?_⟩
  intro other other_mem again
  rcases List.mem_append.mp other_mem with earlier | later
  · exact so.unstopped_before distinct split stop other earlier again
  · obtain ⟨between, rest, rfl⟩ := List.append_of_mem later
    have split' : records past = (before ++ s :: between) ++ other :: rest := by simpa using split
    exact so.unstopped_before distinct split' again s (by simp) stop

/-- Containers are scoped to their stages: each event has before it what has to stand there, a stage
leaves nothing running when its own steps are over, by the end each container has been stopped
exactly once, and what stops answer changes nothing. -/
theorem containers_are_scoped (so : Run engine pipeline properties state past e) :
    (∀ before r after, records past = before ++ r :: after → r.event.isAside = false →
      (∃ state, r.event = .entered state) ∨
        ∃ stage around, pipeline.stageAt? r.place.path = some (stage, around) ∧
          Scoped (stage.effectiveAgent around) (marksAt r.place before) r.event) ∧
    (∀ workflow path, (∀ run, e.stageAt? path = some run → run.isWorking = false) →
      Emptied (marksAt ⟨workflow, path⟩ (records past))) ∧
    (e.result?.isSome = true → DistinctIds (records past) →
      ∀ r ∈ records past, ∀ image id, r.event = .started image id →
        ∃ before s after, records past = before ++ s :: after ∧ s.place = r.place ∧
          s.event = .stop id ∧ ∀ other ∈ before ++ after, other.event ≠ .stop id) ∧
    ∀ f : StopAnswers, ∃ past' e', Run (engine.answering f) pipeline properties state past' e' ∧
      records past' = records past ∧ e'.result? = e.result? ∧
      ∀ path output outcome, e'.stageAt? path = some (.settled output outcome) ↔
        e.stageAt? path = some (.settled output outcome) := by
  refine ⟨?_, ?_, ?_, so.stop_answers⟩
  · intro before r after split notable
    exact so.scoped split notable
  · intro workflow path idle
    exact so.emptied idle
  · intro ended distinct r mem image id started
    exact so.stopped_once ended distinct mem started

theorem Duo.left_stopped_once : Duo.played.2.2.result?.isSome = true ∧
    DistinctIds (records Duo.played.1) ∧
    ∃ before s after, records Duo.played.1 = before ++ s :: after ∧
      s.event = .stop "left:latest" ∧ ∀ other ∈ before ++ after, other.event ≠ .stop "left:latest" := by
  obtain ⟨-, -, once, -⟩ := containers_are_scoped Duo.run
  have ended : Duo.played.2.2.result?.isSome = true := rfl
  have distinct : DistinctIds (records Duo.played.1) := by decide +kernel
  have up : (records Duo.played.1).any (fun r => r.event.startedId? == some "left:latest") = true :=
    by decide +kernel
  obtain ⟨r, mem, started⟩ := List.any_eq_true.mp up
  obtain ⟨image, started⟩ := Event.startedId?_eq_some.mp (beq_iff_eq.mp started)
  obtain ⟨before, s, after, split, -, stop, unique⟩ := once ended distinct r mem image _ started
  exact ⟨ended, distinct, before, s, after, split, stop, unique⟩

end Execution
end PipelineRunner
