import PipelineRunner.Proofs.LogKeeping

/-! Calls that are the same each time. What a piece of work shows to who waits for it is how long it
waits each time, what it logs meanwhile, and what it yields; what it counts, and what it does to
files and in containers, shows only in that. Calls are steady if what they show depends on nothing
but the method, the declared parameters and the kind of the container, for plugins, and on nothing
but the image, for containers. -/

namespace PipelineRunner

/-- What a piece of work shows. -/
inductive Trace (β : Type) : Type where
  | done (value : β)
  | crash (reason : String)
  | sleep (milliseconds : Nat) (rest : Trace β)
  | log (level : LogLevel) (message : String) (rest : Trace β)

namespace Trace

variable {β : Type}

/-- What is logged before the work waits or ends. -/
def lines : Trace β → List (LogLevel × String)
  | log level message rest => (level, message) :: rest.lines
  | _ => []

/-- Where the work first waits or ends. -/
def halt : Trace β → Trace β
  | log _ _ rest => rest.halt
  | trace => trace

end Trace

/-- Whatever its counters and the files are, a piece of work shows this trace, with its yield as it
is viewed, and logs for `own`. -/
def Work.Shows {α β : Type} (own : Option String) (view : α → β) : Work α → Trace β → Prop
  | .done a, trace => trace = .done (view a)
  | .sleep 0 rest, trace => (rest ()).Shows own view trace
  | .sleep (ms + 1) rest, trace =>
    ∃ later, trace = .sleep (ms + 1) later ∧ (rest ()).Shows own view later
  | .log workflow level message rest, trace =>
    some workflow = own ∧ ∃ later, trace = .log level message later ∧ rest.Shows own view later
  | .remark _ rest, trace => rest.Shows own view trace
  | .count _ rest, trace => ∀ n, (rest n).Shows own view trace
  | .readFiles rest, trace => ∀ files, (rest files).Shows own view trace
  | .writeFiles _ rest, trace => rest.Shows own view trace
  | .crash reason, trace => trace = .crash reason

/-- What is performed of a piece of work shows what its trace has at its halt. -/
inductive Progress.Shows {α β : Type} (own : Option String) (view : α → β) (clock : Nat) :
    Progress α → Trace β → Prop where
  | finished (a : α) : Shows own view clock (.finished a) (.done (view a))
  | crashed (reason : String) : Shows own view clock (.crashed reason) (.crash reason)
  | waits {ms : Nat} {wait : Waiting α} {later : Trace β}
      (due : wait.timer.due = clock + min (ms + 1) longestWait)
      (rest : wait.rest.Shows own view later) :
      Shows own view clock (.waits wait) (.sleep (ms + 1) later)

namespace Work.Shows

variable {α β : Type} {own : Option String} {view : α → β} {work : Work α} {trace : Trace β}

theorem logsFor (shows : work.Shows own view trace) : work.LogsFor own := by
  induction work generalizing trace with
  | done | crash => trivial
  | sleep ms rest ih =>
    cases ms with
    | zero => exact ih () shows
    | succ ms =>
      obtain ⟨later, -, shows⟩ := shows
      exact ih () shows
  | log workflow level message rest ih =>
    obtain ⟨mine, later, -, shows⟩ := shows
    exact ⟨mine, ih shows⟩
  | remark what rest ih | writeFiles files rest ih => exact ih shows
  | count counter rest ih | readFiles rest ih => exact fun x => ih x (shows x)

end Work.Shows

/-! ### The log of a workflow in a world -/

namespace World

variable {w w' : World} {id : String} {place : Place}

/-- All that has been logged for a workflow. -/
def entries (w : World) (id : String) : List LogEntry := entriesOf id w.history.reverse

theorem entries_of_news {news : List Record} (history : w'.history = news.reverse ++ w.history) :
    w'.entries id = w.entries id ++ entriesOf id news := by
  rw [entries, history, List.reverse_append, List.reverse_reverse, entriesOf_append, entries]

theorem entries_still (history : w'.history = w.history) : w'.entries id = w.entries id := by
  rw [entries, history, entries]

theorem entries_note {event : Event} (unlogged : event.isOutward = true) :
    (w.note place event).entries id = w.entries id := by
  have news : (w.note place event).history = [⟨w.clock, place, event⟩].reverse ++ w.history := rfl
  rw [entries_of_news news]
  cases event <;> simp_all [entriesOf, Record.entry?, Event.isOutward]

theorem entries_enter (state : WorkflowState) :
    (w.note place (.entered state)).entries id = w.entries id := by
  have news : (w.note place (.entered state)).history =
      [⟨w.clock, place, .entered state⟩].reverse ++ w.history := rfl
  rw [entries_of_news news]
  simp [entriesOf, Record.entry?]

theorem entries_log (level : LogLevel) (message : String) :
    (w.log place id level message).entries id =
      w.entries id ++ [⟨.ofMilliseconds w.clock, level, message⟩] := by
  have news : (w.log place id level message).history =
      [⟨w.clock, place, .logged id level message⟩].reverse ++ w.history := rfl
  rw [entries_of_news news]
  simp [entriesOf, Record.entry?]

/-- Steady work is performed up to the halt of its trace; what it logs until then is there, and
nothing else. -/
theorem perform_shows {α β : Type} {own : Option String} {view : α → β} {work : Work α}
    {trace : Trace β} (shows : work.Shows own view trace)
    (mine : ∀ other, own = some other → other = id) (place : Place) (w : World) :
    (perform place work w).1.clock = w.clock ∧ (perform place work w).1.registry = w.registry ∧
      (perform place work w).1.entries id = w.entries id ++
        trace.lines.map (fun line => ⟨.ofMilliseconds w.clock, line.1, line.2⟩) ∧
      (perform place work w).2.Shows own view w.clock trace.halt := by
  induction work generalizing w trace with
  | done a =>
    obtain rfl : trace = .done (view a) := shows
    exact ⟨rfl, rfl, by simp [perform, Trace.lines], .finished a⟩
  | crash reason =>
    obtain rfl : trace = .crash reason := shows
    exact ⟨rfl, rfl, by simp [perform, Trace.lines], .crashed reason⟩
  | sleep ms rest ih =>
    cases ms with
    | zero => exact ih () shows w
    | succ ms =>
      obtain ⟨later, rfl, shows⟩ := shows
      refine ⟨rfl, rfl, ?_, .waits rfl shows⟩
      simp only [Trace.lines, List.map_nil, List.append_nil]
      exact entries_still rfl
  | log workflow level message rest ih =>
    obtain ⟨same, later, rfl, shows⟩ := shows
    obtain rfl := mine workflow same.symm
    obtain ⟨clock, registry, entries, halt⟩ := ih shows (w.log place workflow level message)
    refine ⟨clock, registry, ?_, halt⟩
    rw [entries_log] at entries
    rw [perform, entries, Trace.lines, List.map_cons, List.append_assoc]
    rfl
  | remark what rest ih =>
    obtain ⟨clock, registry, entries, halt⟩ := ih shows (w.note place (.remarked what))
    rw [entries_note rfl] at entries
    exact ⟨clock, registry, entries, halt⟩
  | count counter rest ih => exact ih _ (shows _) (w.countUp counter).1
  | readFiles rest ih => exact ih _ (shows _) w
  | writeFiles files rest ih => exact ih shows { w with files := files }

end World

/-! ### Steady calls -/

/-- What calls show: those of plugins by the name of the plugin, the method, the declared parameters
and the kind of the container that is named, and those of containers by the image, or by the kind of
the container. Containers of one image are of one kind. A stop delays what comes behind it, so the
time that it takes must not tell containers of one kind apart; whether it fails does not matter. -/
structure Habits (κ : Type) where
  kind : String → κ
  pull : String → Trace (Except Cause Unit)
  start : String → Trace (Except Cause κ)
  stop : κ → Trace Unit
  call : String → String → StepParams → Option κ → Trace (Except Cause (Option String))

/-- The parameters but for those that tell of the surroundings of a step. -/
def declared (params : StepParams) : StepParams :=
  params.filter fun param => param.1 != workflowKey && param.1 != containerKey

variable {κ : Type} {d : Habits κ} {runtime : ContainerRuntime} {registry : Registry}

/-- The calls of a runtime and of the plugins of a registry show just that, whatever is counted, and
whatever the workflow and its container are called. Containers of one kind are served alike, and
plugins log for the workflows they are called for. -/
structure Habits.Describes (d : Habits κ) (runtime : ContainerRuntime) (registry : Registry) :
    Prop where
  pull : ∀ image, (runtime.pull image).Shows none (fun answer => answer) (d.pull image)
  start : ∀ image, (runtime.start image).Shows none (Except.map d.kind) (d.start image)
  stop : ∀ container, (runtime.stop container).Shows none (fun _ => ()) (d.stop (d.kind container))
  call : ∀ p ∈ registry.plugins, ∀ method params workflow, params.get? workflowKey = some workflow →
    (p.plugin.invoke method params).Shows (some workflow) (fun answer => answer)
      (d.call p.name method (declared params) ((params.get? containerKey).map d.kind))
  discreet : registry.Discreet

theorem Habits.Describes.silent (described : d.Describes runtime registry) : runtime.Silent :=
  ⟨fun image => (described.pull image).logsFor, fun image => (described.start image).logsFor,
    fun container => (described.stop container).logsFor⟩

/-! ### Parameters -/

theorem filter_insert {β : Type} {keep : String × β → Bool} {name : String}
    (dropped : ∀ value, keep (name, value) = false) (value : β) (m : OrderedMap β) :
    (OrderedMap.insert name value m).filter keep = m.filter keep := by
  induction m with
  | nil => simp [OrderedMap.insert, dropped]
  | cons entry rest ih =>
    obtain ⟨n, v⟩ := entry
    unfold OrderedMap.insert
    split
    next same =>
      subst same
      simp [dropped]
    next => simp [List.filter_cons, ih]

/-- What tells of the surroundings of a step is not declared. -/
theorem declared_paramsWithin (step : Step) (workflow : String) (container : Option String) :
    declared (step.paramsWithin workflow container) = declared step.params := by
  have surrounding (params : StepParams) (name value : String)
      (apart : name = workflowKey ∨ name = containerKey) :
      declared (params.insert name value) = declared params :=
    filter_insert (fun _ => by rcases apart with rfl | rfl <;> simp) value params
  unfold Step.paramsWithin
  cases container with
  | none => exact surrounding _ _ _ (.inl rfl)
  | some c => exact (surrounding _ _ _ (.inr rfl)).trans (surrounding _ _ _ (.inl rfl))

end PipelineRunner
