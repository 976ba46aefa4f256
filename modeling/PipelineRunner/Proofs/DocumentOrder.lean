import PipelineRunner.Proofs.OrderedEntries
import PipelineRunner.Proofs.StageOutcomes
import PipelineRunner.Proofs.TurnsAtPlaces

/-! An execution keeps to the order of the document, and its report tells what has become of the
stages. Top-level stages come one after the other up to the first that fails, branches come before
the own steps of the stage around them, and steps come one after the other up to the first error. -/

namespace PipelineRunner

open StageRun (SettledAs)

/-- Whether an event belongs to the own steps of a stage. -/
def Event.isOwn : Event → Bool
  | .entered _ | .logged .. | .remarked _ | .retired .. | .received .. => false
  | _ => true

theorem notable_of_isOwn {event : Event} (h : event.isOwn = true) : event.isAside = false := by
  cases event <;> first | rfl | cases h

theorem isOfStage_of_isOwn {event : Event} (h : event.isOwn = true) : event.isOfStage = true := by
  cases event <;> first | rfl | cases h

namespace StageRun

variable {stage : Stage} {inherited agent : Agent} {c : Context} {past : List Moment}
  {run run' : StageRun} {w w' : World} {path : List Nat} {news : List Record} {m : Moment}
  {r : Record} {i : Nat}

theorem along_concat (path : List Nat) (i : Nat) (past : List Moment) :
    along (path ++ [i]) past = within i (along path past) := by
  induction path generalizing past with
  | nil => rfl
  | cons j path ih => exact ih _

theorem isOwn_of_called {plugin method : String} {params : StepParams} {builtin : Bool}
    (call : r.event = .called plugin method params builtin) : r.event.isOwn = true := by
  simp [call, Event.isOwn]

/-- What is noted of own steps is noted while they are under way. -/
theorem working_of_own (moved : run.move c w path = .moved w' run')
    (noted : w'.history = news.reverse ++ w.history) (mem : r ∈ news) (here : r.place = c.place)
    (own : r.event.isOwn = true) : ∃ s a branches own, run = working s a branches own := by
  cases turned_of_move moved with
  | enters | leaves all =>
    obtain rfl : news = [] := by simpa using noted
    cases mem
  | works | settles => exact ⟨_, _, _, _, rfl⟩
  | @receives _ _ _ _ i _ _ outcome there =>
    have notes : w.Notes c.place [.received i outcome.isSome] (w.note c.place _) :=
      World.notes_note rfl
    have received := List.mem_singleton.mp (notes.mem noted mem (notable_of_isOwn own))
    simp [received, Event.isOwn] at own
  | inside there unsettled inner =>
    obtain ⟨way, hw⟩ := (place_of_moved inner noted).imp fun _ below => below r mem
    refine absurd (here.symm.trans hw) ?_
    simpa [Context.inside] using (Place.below_cons_ne _ _ _).symm

/-- A call is made for a step under way. -/
theorem calling_of_called (moved : run.move c w path = .moved w' run')
    (noted : w'.history = news.reverse ++ w.history) (mem : r ∈ news) (here : r.place = c.place)
    {plugin method : String} {params : StepParams} {builtin : Bool}
    (call : r.event = .called plugin method params builtin) :
    ∃ s a branches own, run = working s a branches own ∧ own.Calling params := by
  obtain ⟨s, a, branches, own, rfl⟩ := working_of_own moved noted mem here (isOwn_of_called call)
  refine ⟨s, a, branches, own, rfl, ?_⟩
  have seen {events : List Event} (notes : w.Notes c.place events w') :
      Event.called plugin method params builtin ∈ events :=
    call ▸ notes.mem noted mem (by simp [call, Event.isAside])
  cases turned_of_move moved with
  | works notes goes => exact goes.calling (seen notes)
  | settles notes ends => exact absurd (seen notes) ends.uncalled

end StageRun

namespace Execution

variable {engine : Engine} {pipeline : Pipeline} {properties : Properties} {state : StateCell}
  {past before after : List Moment} {e e' : Execution} {path : List Nat} {w w' : World}
  {workflow : String} {i j : Nat} {m : Moment} {r : Record} {output : StageOutput}
  {outcome : Option StepError} {news : List Record}

/-! ### Turns and their records -/

theorem pastAt_concat (past : List Moment) {path : List Nat} (some : path ≠ []) (i : Nat) :
    pastAt past (path ++ [i]) = StageRun.within i (pastAt past path) := by
  cases path with
  | nil => exact absurd rfl some
  | cons j way => exact StageRun.along_concat way i _

/-! ### Top-level stages -/

/-- The stage that an execution is at. -/
def Phase.index? : Phase → Option Nat
  | .between _ i _ _ => some i
  | .inStage _ i .. => some i
  | _ => none

/-- `w'` comes from `w` by records of the whole, or of one stage and what is below it. -/
def NotesBelow (w : World) (index : Option Nat) (w' : World) : Prop :=
  ∃ news : List Record, w'.history = news.reverse ++ w.history ∧
    ∀ r ∈ news, ∀ i way, r.place.path = i :: way → index = some i

theorem NotesBelow.trans {w'' : World} {index : Option Nat} (h : NotesBelow w index w')
    (h' : NotesBelow w' index w'') : NotesBelow w index w'' := by
  obtain ⟨xs, hx, px⟩ := h
  obtain ⟨ys, hy, py⟩ := h'
  refine ⟨xs ++ ys, by simp [hy, hx], fun r mem => ?_⟩
  rcases List.mem_append.mp mem with mem | mem
  · exact px r mem
  · exact py r mem

theorem notesBelow_nothing {index : Option Nat} : NotesBelow w index w := ⟨[], rfl, by simp⟩

theorem notesBelow_log (workflow : String) (i : Nat) (level : LogLevel) (message : String) :
    NotesBelow w (some i) (w.log ⟨workflow, [i]⟩ workflow level message) :=
  ⟨[⟨w.clock, ⟨workflow, [i]⟩, .logged workflow level message⟩], rfl, by simp⟩

theorem notesBelow_enter {index : Option Nat} (workflow : String) (state : WorkflowState) :
    NotesBelow w index (e.enter workflow state w).1 := by
  simp only [enter]
  split
  · exact ⟨[_], rfl, by simp⟩
  · exact ⟨[], rfl, by simp⟩

/-- What a turn of an execution notes tells of the whole, or of the stage that it is at. -/
theorem notesBelow_of_move (h : e.move engine w path = .moved w' e') :
    NotesBelow w e.phase.index? w' := by
  unfold move at h
  split at h
  next fresh =>
    unfold begin at h
    split at h
    · cases h
      exact notesBelow_nothing
    · cases h
      exact (notesBelow_enter _ _).trans (notesBelow_enter _ _)
  next phase =>
    cases h
    exact notesBelow_enter _ _
  next phase =>
    cases h
    rw [phase]
    exact notesBelow_log _ _ _ _
  next output failure todo results phase =>
    rw [phase]
    cases failure with
    | none =>
      cases h
      exact notesBelow_nothing
    | some error =>
      cases h
      exact (notesBelow_log _ _ _ _).trans (notesBelow_enter _ _)
  next run todo results unsettled phase =>
    rw [phase]
    unfold followStage at h
    split at h
    next moved =>
      cases h
      obtain ⟨news, noted⟩ := StageRun.grows_of_move moved
      refine ⟨news, noted, fun r mem i way place => ?_⟩
      obtain ⟨below, here⟩ := (StageRun.place_of_moved moved noted).imp fun _ below => below r mem
      rw [here] at place
      exact congrArg some (List.cons.inj place).1
    next => cases h
    next => cases h
  next => cases h
  next => cases h

theorem index_of_news (moved : e.move engine w path = .moved w' e')
    (noted : w'.history = news.reverse ++ w.history) (mem : r ∈ news) {way : List Nat}
    (place : r.place.path = i :: way) : e.phase.index? = some i := by
  obtain ⟨news, noted', below⟩ := notesBelow_of_move moved
  obtain rfl := List.reverse_inj.mp (List.append_cancel_right (noted.symm.trans noted'))
  exact below r mem i way place

/-- The stage at a place has settled without a failure. -/
def Succeeded (past : List Moment) (path : List Nat) : Prop :=
  ∃ output, SettledAs (pastAt past path) output none

theorem Run.settled_unique (so : Run engine pipeline properties state past e)
    {output' : StageOutput} {outcome' : Option StepError}
    (h : SettledAs (pastAt past path) output outcome)
    (h' : SettledAs (pastAt past path) output' outcome') :
    output = output' ∧ outcome = outcome' := by
  obtain ⟨m, mem, -⟩ := id h
  obtain ⟨workflow, stage, around, known, there⟩ := so.declared_of_past mem
  obtain ⟨c, run, inner, -⟩ := so.descend known there
  simpa using (inner.settled_of_settledAs h).symm.trans (inner.settled_of_settledAs h')

/-- A stage that can only be ahead has had no turn. -/
theorem Run.idle (so : Run engine pipeline properties state past e)
    (ahead : e.phase.isAfter j = false)
    (outside : ∀ workflow name run todo results,
      e.phase ≠ .inStage workflow j name run todo results) : pastAt past [j] = [] := by
  change inStage j past = []
  cases known : properties.workflowId with
  | error error => exact so.inStage_unknown known j
  | ok workflow =>
    cases hs : pipeline.stages[j]? with
    | none => exact so.inStage_missing hs
    | some stage =>
      obtain ⟨run, inner, holds⟩ := so.stage known hs
      generalize hp : e.phase = phase at holds
      cases holds with
      | ahead idle _ => exact idle
      | underWay => exact absurd hp (outside _ _ _ _ _)
      | behind after => simp [hp ▸ ahead] at after

/-- The stages before a position have settled without a failure, and their outputs make up the
results. -/
structure Collected (pipeline : Pipeline) (past : List Moment) (n : Nat) (results : StageResults)
    (outputs : List StageOutput) : Prop where
  length : outputs.length = n
  results : results = OrderedMap.ofEntries (((pipeline.stages.take n).map (·.name)).zip outputs)
  succeeded : ∀ i output, outputs[i]? = some output → SettledAs (pastAt past [i]) output none

/-- What a report tells of the top-level stages. -/
structure Reports (pipeline : Pipeline) (past : List Moment) (outputs : List StageOutput)
    (report : Report) : Prop where
  /-- There is an output of each stage that has been started, and of no other. -/
  started : ∀ i, i < outputs.length ↔ pastAt past [i] ≠ []
  settled : ∀ i output, outputs[i]? = some output →
    ∃ outcome, SettledAs (pastAt past [i]) output outcome
  /-- The results are in the order of the document, a repeated name where it comes first. -/
  names : OrderedMap.names report.stages =
    ((pipeline.stages.take outputs.length).map (·.name)).eraseDups
  /-- Of stages with the same name the last one counts. -/
  last : ∀ name, OrderedMap.get? name report.stages =
    (((pipeline.stages.take outputs.length).map (·.name)).zip outputs).reverse.lookup name
  /-- The report has a failure exactly if a stage has failed, and names that stage. -/
  failure : ∀ f, report.failure = some f ↔ ∃ i stage output error,
    pipeline.stages[i]? = some stage ∧ SettledAs (pastAt past [i]) output (some error) ∧
      f = ⟨stage.name, error.message⟩

/-- What an execution has collected as far as it has come. -/
def Phase.Keeps (pipeline : Pipeline) (past : List Moment) : Phase → Prop
  | .between _ i _ results => ∃ outputs, Collected pipeline past i results outputs
  | .inStage _ i _ _ _ results => ∃ outputs, Collected pipeline past i results outputs
  | .over (.ok report) => ∃ outputs, Reports pipeline past outputs report
  | _ => True

theorem Collected.later {n : Nat} {results : StageResults} {outputs : List StageOutput}
    (h : Collected pipeline past n results outputs) (m : Moment) :
    Collected pipeline (past ++ [m]) n results outputs := by
  refine ⟨h.length, h.results, fun i output there => ?_⟩
  rw [pastAt_append]
  exact (h.succeeded i output there).later _

theorem of_getElem?_concat {outputs : List StageOutput} {last : StageOutput}
    (h : (outputs ++ [last])[i]? = some output) :
    outputs[i]? = some output ∨ i = outputs.length ∧ output = last := by
  rcases Nat.lt_or_ge i outputs.length with earlier | later
  · exact .inl (by rwa [List.getElem?_append_left earlier] at h)
  · rw [List.getElem?_append_right later, List.getElem?_singleton] at h
    split at h
    next last => exact .inr ⟨by omega, (Option.some.inj h).symm⟩
    next => cases h

theorem zip_take_succ {stages : List Stage} {stage : Stage} {n : Nat} {outputs : List StageOutput}
    (there : stages[n]? = some stage) (length : outputs.length = n) (output : StageOutput) :
    ((stages.take (n + 1)).map (·.name)).zip (outputs ++ [output]) =
      ((stages.take n).map (·.name)).zip outputs ++ [(stage.name, output)] := by
  have inside := (List.getElem?_eq_some_iff.mp there).1
  have sizes : ((stages.take n).map (·.name)).length = outputs.length := by
    simp only [List.length_map, List.length_take]
    omega
  rw [List.take_add_one, there, List.map_append, List.zip_append sizes]
  rfl

/-- A stage that has failed is behind those that have been collected. -/
theorem Collected.le_of_failed {n : Nat} {results : StageResults} {outputs : List StageOutput}
    {error : StepError} (h : Collected pipeline past n results outputs)
    (so : Run engine pipeline properties state past e)
    (failed : SettledAs (pastAt past [j]) output (some error)) : n ≤ j := by
  by_contra before
  have inside : j < outputs.length := by
    have := h.length
    omega
  have succeeded := h.succeeded j outputs[j] (List.getElem?_eq_getElem inside)
  cases (so.settled_unique succeeded failed).2

/-- A report with the outputs of all stages that have been started tells of the right ones. -/
theorem Reports.of_results {outputs : List StageOutput} {report : Report}
    (results : report.stages =
      OrderedMap.ofEntries (((pipeline.stages.take outputs.length).map (·.name)).zip outputs))
    (settled : ∀ i output, outputs[i]? = some output →
      ∃ outcome, SettledAs (pastAt past [i]) output outcome)
    (idle : ∀ i, outputs.length ≤ i → pastAt past [i] = [])
    (failure : ∀ f, report.failure = some f ↔ ∃ i stage output error,
      pipeline.stages[i]? = some stage ∧ SettledAs (pastAt past [i]) output (some error) ∧
        f = ⟨stage.name, error.message⟩) : Reports pipeline past outputs report := by
  refine ⟨fun i => ⟨fun inside none => ?_, fun some => ?_⟩, settled, ?_, fun name => ?_, failure⟩
  · obtain ⟨outcome, m, mem, -⟩ := settled i outputs[i] (List.getElem?_eq_getElem inside)
    simp [none] at mem
  · by_contra behind
    exact some (idle i (Nat.le_of_not_lt behind))
  · have size : ((pipeline.stages.take outputs.length).map (·.name)).length ≤ outputs.length := by
      rw [List.length_map, List.length_take]
      exact Nat.min_le_left _ _
    rw [results, OrderedMap.names_ofEntries, List.map_fst_zip size]
  · rw [results, OrderedMap.get?_ofEntries]

theorem Run.reports_of_finished (so : Run engine pipeline properties state past e) {n : Nat}
    {results : StageResults} {outputs : List StageOutput}
    (collected : Collected pipeline past n results outputs)
    (idle : ∀ i, n ≤ i → pastAt past [i] = []) :
    Reports pipeline past outputs ⟨workflow, results, none⟩ := by
  obtain ⟨rfl, rfl, succeeded⟩ := id collected
  refine .of_results rfl (fun i output there => ⟨_, succeeded i output there⟩) idle fun f => ?_
  constructor
  · intro none
    cases none
  · rintro ⟨j, stage, output, error, there, failed, rfl⟩
    obtain ⟨m, mem, -⟩ := id failed
    simp [idle j (collected.le_of_failed so failed)] at mem

theorem Run.reports_of_failed (so : Run engine pipeline properties state past e) {n : Nat}
    {results : StageResults} {outputs : List StageOutput} {stage : Stage} {error : StepError}
    (collected : Collected pipeline past n results outputs)
    (there : pipeline.stages[n]? = some stage)
    (failed : SettledAs (pastAt past [n]) output (some error))
    (idle : ∀ i, n < i → pastAt past [i] = []) :
    Reports pipeline past (outputs ++ [output])
      ⟨workflow, OrderedMap.insert stage.name output results, some ⟨stage.name, error.message⟩⟩ := by
  obtain ⟨rfl, rfl, succeeded⟩ := id collected
  refine .of_results ?_ (fun i output' there => ?_) (fun i behind => ?_) fun f => ?_
  · rw [List.length_append, List.length_singleton, zip_take_succ there rfl,
      OrderedMap.ofEntries_concat]
  · rcases of_getElem?_concat there with earlier | ⟨rfl, rfl⟩
    · exact ⟨_, succeeded i output' earlier⟩
    · exact ⟨_, failed⟩
  · rw [List.length_append, List.length_singleton] at behind
    exact idle i behind
  · constructor
    · rintro ⟨⟩
      exact ⟨_, _, _, _, there, failed, rfl⟩
    · rintro ⟨j, stage', output', error', there', failed', rfl⟩
      have behind := collected.le_of_failed so failed'
      obtain rfl : j = outputs.length := by
        by_contra other
        obtain ⟨m, mem, -⟩ := id failed'
        simp [idle j (by omega)] at mem
      obtain rfl := Option.some.inj (there.symm.trans there')
      obtain ⟨-, same⟩ := so.settled_unique failed failed'
      rw [Option.some.inj same]

theorem Run.settledAs (so : Run engine pipeline properties state past e)
    {name : String} {todo : List Stage} {results : StageResults}
    (phase : e.phase = .inStage workflow i name (.settled output outcome) todo results) :
    SettledAs (pastAt past [i]) output outcome := by
  obtain ⟨-, -, fits⟩ := so.fits
  rw [phase] at fits
  obtain ⟨known, stage, -, rest⟩ := fits
  have there : pipeline.stages[i]? = some stage := by simpa using congrArg List.head? rest
  obtain ⟨run, inner, holds⟩ := so.stage known there
  rw [phase] at holds
  cases holds with
  | ahead idle before => simp [Phase.isBefore] at before
  | underWay => exact inner.settledAs
  | behind after => simp [Phase.isAfter] at after

/-- An execution collects the outputs of its stages, and reports them at its end. -/
theorem Run.keeps (so : Run engine pipeline properties state past e) :
    e.phase.Keeps pipeline past := by
  induction so with
  | begins => trivial
  | called so rota ih => exact ih
  | @turn past e e' path w w' news so moved noted ih =>
    obtain ⟨rfl, -, fits⟩ := so.fits
    have same (outside : (∀ workflow index name run todo results,
          e.phase ≠ .inStage workflow index name run todo results) ∨
        ∀ workflow index name run todo results,
          e'.phase ≠ .inStage workflow index name run todo results) (i : Nat) :
        pastAt (past ++ [⟨path, e, e', news⟩]) [i] = pastAt past [i] :=
      inStage_concat_outside outside
    have through := so.turn moved noted
    cases turned_of_move moved with
    | refused => trivial
    | begins fresh =>
      exact ⟨[], rfl, rfl, fun i output there => by simp at there⟩
    | @finishes workflow index results _ phase =>
      rw [phase] at ih
      obtain ⟨outputs, collected⟩ := ih
      refine ⟨outputs, through.reports_of_finished (collected.later _) fun i behind => ?_⟩
      rw [same (.inl (by simp [phase]))]
      exact so.idle (by simp [phase, Phase.isAfter, behind]) (by simp [phase])
    | starts phase =>
      rw [phase] at ih
      exact ih.imp fun _ collected => collected.later _
    | @succeeds workflow index name output todo results phase =>
      have settled := so.settledAs phase
      rw [phase] at ih fits
      obtain ⟨outputs, collected⟩ := ih
      obtain ⟨-, stage, rfl, rest⟩ := fits
      have there : e.pipeline.stages[index]? = some stage := by
        simpa using congrArg List.head? rest
      refine ⟨outputs ++ [output], by simp [collected.length], ?_, fun i output' at_ => ?_⟩
      · rw [zip_take_succ there collected.length, OrderedMap.ofEntries_concat, collected.results]
      · rw [same (.inr (by simp))]
        rcases of_getElem?_concat at_ with earlier | ⟨rfl, rfl⟩
        · exact collected.succeeded i output' earlier
        · exact collected.length ▸ settled
    | @fails workflow index name output error todo results _ phase =>
      have settled := so.settledAs phase
      rw [phase] at ih fits
      obtain ⟨outputs, collected⟩ := ih
      obtain ⟨-, stage, rfl, rest⟩ := fits
      have there : e.pipeline.stages[index]? = some stage := by
        simpa using congrArg List.head? rest
      have still := same (.inr (by simp))
      refine ⟨outputs ++ [output], through.reports_of_failed (collected.later _) there ?_ ?_⟩
      · rw [still]
        exact settled
      · intro i behind
        rw [still]
        exact so.idle (by simp [phase, Phase.isAfter]; omega) (by simp [phase]; omega)
    | inside phase =>
      rw [phase] at ih
      exact ih.imp fun _ collected => collected.later _

/-- The stages before the one that an execution is at have succeeded. -/
theorem Run.succeeded_before (so : Run engine pipeline properties state past e)
    (here : e.phase.index? = some i) (earlier : j < i) : Succeeded past [j] := by
  have keeps := so.keeps
  unfold Phase.Keeps at keeps
  have collected : ∃ results outputs, Collected pipeline past i results outputs := by
    unfold Phase.index? at here
    split at here
    next phase =>
      cases here
      rw [phase] at keeps
      exact ⟨_, keeps⟩
    next phase =>
      cases here
      rw [phase] at keeps
      exact ⟨_, keeps⟩
    next => cases here
  obtain ⟨results, outputs, collected⟩ := collected
  have inside : j < outputs.length := collected.length ▸ earlier
  exact ⟨_, collected.succeeded j outputs[j] (List.getElem?_eq_getElem inside)⟩

/-! ### Order -/

/-- What has come before something is noted in a run. -/
structure InOrder (pipeline : Pipeline) (before : List Moment) (r : Record) : Prop where
  /-- The top-level stages before it have succeeded. -/
  stages : ∀ i way, r.place.path = i :: way → ∀ j < i, Succeeded before [j]
  /-- Before the own steps of a stage its branches have succeeded. -/
  branches : r.event.isOwn = true → ∀ stage around,
    pipeline.stageAt? r.place.path = some (stage, around) →
      ∀ i < stage.parallel.length, Succeeded before (r.place.path ++ [i])
  /-- Before the calls of a step the steps before it have delivered, and no other. -/
  steps : ∀ plugin method params builtin, r.event = .called plugin method params builtin →
    ∃ stage around done step todo container,
      pipeline.stageAt? r.place.path = some (stage, around) ∧
      stage.steps = done ++ step :: todo ∧
      done.length = (delivered (marksAt r.place (records before))).length ∧
      params = step.paramsWithin r.place.workflow container

/-- What is noted at the place of a stage is noted by its own run. -/
theorem Run.marksAt_place (so : Run engine pipeline properties state past e) {place : Place}
    (known : properties.workflowId = .ok place.workflow) (some : place.path ≠ []) :
    marksAt place (records past) =
      marksAt place (StageRun.records (pastAt past place.path)) := by
  obtain ⟨workflow, path⟩ := place
  cases path with
  | nil => exact absurd rfl some
  | cons i way => exact so.marksAt_pastAt known i way

theorem stageAt?_nonempty {p : Pipeline} {found : Stage × Agent}
    (h : p.stageAt? path = some found) : path ≠ [] := by
  rintro rfl
  cases h

theorem Run.inOrder (so : Run engine pipeline properties state past e)
    (split : past = before ++ m :: after) (mem : r ∈ m.news) : InOrder pipeline before r := by
  obtain ⟨w₀, w₀', earlier, moved₀, noted₀⟩ := so.split split
  refine ⟨fun i way place j hj => ?_, fun own stage around there i hi => ?_, ?_⟩
  · exact earlier.succeeded_before (index_of_news moved₀ noted₀ mem place) hj
  · obtain ⟨stage', around', w, w', run, run', way, -, there', -, deep, place, moved, noted, -⟩ :=
      so.turn_of_record split mem (isOfStage_of_isOwn own)
    obtain ⟨rfl, rfl⟩ : stage = stage' ∧ around = around' := by
      simpa using there.symm.trans there'
    obtain ⟨s, a, branches, steps, working⟩ :=
      StageRun.working_of_own moved noted mem place.symm own
    have faithful := deep.faithful
    rw [working] at faithful
    obtain ⟨-, contributed, -⟩ := faithful
    cases contributed with
    | nothing alone => simp [alone] at hi
    | results _ _ succeeded =>
      obtain ⟨output, settled⟩ := succeeded i hi
      refine ⟨output, ?_⟩
      rw [pastAt_concat _ (stageAt?_nonempty there)]
      exact settled
  · intro plugin method params builtin call
    obtain ⟨stage, around, w, w', run, run', way, known, there, -, deep, place, moved, noted, -⟩ :=
      so.turn_of_record split mem (by simp [call, Event.isOfStage, Event.isAside])
    obtain ⟨s, a, branches, steps, working, container, trial, todo, outputs, trying, rfl⟩ :=
      StageRun.calling_of_called moved noted mem place.symm call
    have faithful := deep.faithful
    rw [working, trying] at faithful
    obtain ⟨-, -, ⟨step, -, params, done, split, size⟩, -⟩ := faithful
    refine ⟨stage, around, done, step, todo, container, there, split, ?_, ?_⟩
    · rw [place] at size
      rw [earlier.marksAt_place known (stageAt?_nonempty there)]
      exact size
    · rw [params, place]

/-- Behind a stage that has failed no stage is come to. -/
theorem Run.not_behind_failed (so : Run engine pipeline properties state past e) {error : StepError}
    (failed : SettledAs (pastAt past [i]) output (some error)) (later : i < j) (mem : m ∈ past) :
    m.before.phase.index? ≠ some j := by
  intro here
  obtain ⟨before, after, rfl⟩ := List.append_of_mem mem
  obtain ⟨w, w', earlier, -⟩ := so.split rfl
  obtain ⟨output', succeeded⟩ := earlier.succeeded_before here later
  have again : SettledAs (pastAt (before ++ m :: after) [i]) output' none := by
    rw [pastAt_append]
    exact succeeded.later _
  cases (so.settled_unique failed again).2

theorem index_of_mem_inStage {sm : StageRun.Moment} (mem : sm ∈ inStage i past) :
    ∃ m ∈ past, m.before.phase.index? = some i := by
  obtain ⟨m, among, inside⟩ := List.mem_filterMap.mp mem
  refine ⟨m, among, ?_⟩
  unfold Moment.inStage? at inside
  split at inside
  next phase _ =>
    split at inside
    next same => simp [phase, Phase.index?, same]
    next => cases inside
  next => cases inside

/-- Runs keep to the order of the document, and tell faithfully what has become of them. Whatever
is noted has everything before it that has to come first; what a stage settles with is made of
what its branches have settled with and of what its own steps have delivered; a stage behind a
failed one is never come to, and the report has the stages that have been started. -/
theorem runs_keep_document_order (so : Run engine pipeline properties state past e) :
    (∀ before m after r, past = before ++ m :: after → r ∈ m.news → InOrder pipeline before r) ∧
    (∀ workflow path stage around output outcome, properties.workflowId = .ok workflow →
      pipeline.stageAt? path = some (stage, around) → SettledAs (pastAt past path) output outcome →
      StageRun.Yields stage (stage.effectiveAgent around) (pastAt past path)
        (marksAt ⟨workflow, path⟩ (records past)) output outcome) ∧
    (∀ i j output error, SettledAs (pastAt past [i]) output (some error) → i < j →
      pastAt past [j] = [] ∧ ∀ r ∈ records past, ∀ way, r.place.path ≠ j :: way) ∧
    ∀ report, e.result? = some (.ok report) → ∃ outputs, Reports pipeline past outputs report := by
  refine ⟨fun before m after r split mem => so.inOrder split mem, ?_, ?_, ?_⟩
  · intro workflow path stage around output outcome known there settled
    obtain ⟨c, run, inner, -, place, -⟩ := so.descend known there
    obtain rfl := inner.settled_of_settledAs settled
    have faithful := inner.faithful
    rw [place, ← so.marksAt_place known (stageAt?_nonempty there)] at faithful
    exact faithful
  · intro i j output error failed later
    refine ⟨List.eq_nil_iff_forall_not_mem.mpr fun sm among => ?_, fun r mem way place => ?_⟩
    · obtain ⟨m, mem, here⟩ := index_of_mem_inStage among
      exact so.not_behind_failed failed later mem here
    · obtain ⟨m, among, mem⟩ := List.mem_flatMap.mp mem
      obtain ⟨before, after, split⟩ := List.append_of_mem among
      obtain ⟨w, w', -, moved, noted⟩ := so.split split
      exact so.not_behind_failed failed later among (index_of_news moved noted mem place)
  · intro report ended
    have keeps := so.keeps
    unfold result? at ended
    split at ended
    next result phase =>
      obtain rfl := Option.some.inj ended
      rwa [phase] at keeps
    next => cases ended

theorem Duo.report_in_order : ∃ report outputs, Duo.played.2.2.result? = some (.ok report) ∧
    report.failure = some ⟨"build", "broken"⟩ ∧ OrderedMap.names report.stages = ["build"] ∧
    Reports Duo.pipeline Duo.played.1 outputs report := by
  obtain ⟨-, -, -, reported⟩ := runs_keep_document_order Duo.run
  obtain ⟨outputs, reports⟩ := reported _ rfl
  exact ⟨_, outputs, rfl, rfl, rfl, reports⟩

end Execution
end PipelineRunner
