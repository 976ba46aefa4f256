import PipelineRunner.Proofs.StageRuns

/-! Runs of an execution beside others: its turns come at any places and in any order, each in
whatever world it finds, so that other workflows, the clock and the registry may have gone on in any
way meanwhile. A run of an execution is made of runs of its stages. -/

namespace PipelineRunner

/-- The stage at a place of a pipeline, with the agent around it. -/
def Pipeline.stageAt? (p : Pipeline) : List Nat → Option (Stage × Agent)
  | [] => none
  | i :: path =>
    match p.stages[i]? with
    | some stage => stage.at? p.agent path
    | none => none

/-- A record that tells of the workflow as a whole, or an aside on one of its stages. -/
def Record.OfWhole (workflow : String) (r : Record) : Prop :=
  r.place.workflow = workflow ∧
    (r.event.isAside = true ∨ r.place.path = [] ∧ ∃ state, r.event = .entered state)

/-- `w'` comes from `w` by notes of the workflow as a whole, and asides on its stages. -/
def World.NotesWhole (w : World) (workflow : String) (w' : World) : Prop :=
  ∃ news : List Record, w'.history = news.reverse ++ w.history ∧ ∀ r ∈ news, r.OfWhole workflow

namespace World

variable {w w' w'' : World} {workflow : String}

theorem NotesWhole.trans (h : w.NotesWhole workflow w') (h' : w'.NotesWhole workflow w'') :
    w.NotesWhole workflow w'' := by
  obtain ⟨xs, hx, px⟩ := h
  obtain ⟨ys, hy, py⟩ := h'
  refine ⟨xs ++ ys, by simp [hy, hx], ?_⟩
  intro r hr
  rcases List.mem_append.mp hr with hr | hr
  · exact px r hr
  · exact py r hr

theorem NotesWhole.nothing : w.NotesWhole workflow w := ⟨[], rfl, by simp⟩

theorem NotesWhole.of_news {news : List Record} (h : w.NotesWhole workflow w')
    (noted : w'.history = news.reverse ++ w.history) : ∀ r ∈ news, r.OfWhole workflow := by
  obtain ⟨xs, hx, px⟩ := h
  obtain rfl : xs = news := List.reverse_inj.mp (List.append_cancel_right (hx.symm.trans noted))
  exact px

/-- Notes of the whole leave no marks at a stage. -/
theorem NotesWhole.recordsAt {news : List Record} (h : w.NotesWhole workflow w')
    (noted : w'.history = news.reverse ++ w.history) (other : String) (i : Nat)
    (way : List Nat) : recordsAt ⟨other, i :: way⟩ news = [] := by
  rw [PipelineRunner.recordsAt, List.filter_eq_nil_iff]
  intro r mem
  rcases (h.of_news noted r mem).2 with aside | ⟨whole, -⟩
  · simp [aside]
  · have elsewhere : r.place ≠ ⟨other, i :: way⟩ := by
      intro here
      simp [here] at whole
    simp [elsewhere]

theorem notesWhole_log (path : List Nat) (level : LogLevel) (message : String) :
    w.NotesWhole workflow (w.log ⟨workflow, path⟩ workflow level message) :=
  ⟨[⟨w.clock, ⟨workflow, path⟩, .logged workflow level message⟩], rfl,
    by simp [Record.OfWhole, Event.isAside]⟩

end World

namespace Execution

/-- What is around a stage of the pipeline. -/
abbrev outermost (engine : Engine) (workflow : String) (index : Nat) : Context :=
  ⟨engine, ⟨workflow, [index]⟩, false, false⟩

/-- The turns that change something in an execution. -/
inductive Turned (engine : Engine) (e : Execution) (w : World) (path : List Nat) :
    World → Execution → Prop where
  | refused {error : ExecutionError} (fresh : e.phase = .fresh)
      (missing : e.properties.workflowId = .error error) :
      Turned engine e w path w { e with phase := .over (.error error) }
  | begins {workflow : String} {w' : World} (fresh : e.phase = .fresh)
      (known : e.properties.workflowId = .ok workflow) (noted : w.NotesWhole workflow w') :
      Turned engine e w path w'
        { e with
          state := ((e.state.advance .started).1.advance .running).1
          phase := .between workflow 0 e.pipeline.stages [] }
  | finishes {workflow : String} {index : Nat} {results : StageResults} {w' : World}
      (phase : e.phase = .between workflow index [] results)
      (noted : w.NotesWhole workflow w') :
      Turned engine e w path w'
        { e with
          state := (e.state.advance .done).1
          phase := .over (.ok ⟨workflow, results, none⟩) }
  | starts {workflow : String} {index : Nat} {stage : Stage} {todo : List Stage}
      {results : StageResults} {w' : World}
      (phase : e.phase = .between workflow index (stage :: todo) results)
      (noted : w.NotesWhole workflow w') :
      Turned engine e w path w'
        { e with
          phase := .inStage workflow index stage.name (.fresh stage e.pipeline.agent) todo results }
  | succeeds {workflow : String} {index : Nat} {stage : String} {output : StageOutput}
      {todo : List Stage} {results : StageResults}
      (phase : e.phase = .inStage workflow index stage (.settled output none) todo results) :
      Turned engine e w path w
        { e with
          phase := .between workflow (index + 1) todo (OrderedMap.insert stage output results) }
  | fails {workflow : String} {index : Nat} {stage : String} {output : StageOutput}
      {error : StepError} {todo : List Stage} {results : StageResults} {w' : World}
      (phase : e.phase = .inStage workflow index stage (.settled output (some error)) todo results)
      (noted : w.NotesWhole workflow w') :
      Turned engine e w path w'
        { e with
          state := (e.state.advance .done).1
          phase := .over (.ok ⟨workflow, OrderedMap.insert stage output results,
            some ⟨stage, error.message⟩⟩) }
  | inside {workflow : String} {index : Nat} {stage : String} {run run' : StageRun}
      {todo : List Stage} {results : StageResults} {w' : World}
      (phase : e.phase = .inStage workflow index stage run todo results)
      (unsettled : run.isSettled = false)
      (moved : run.move (outermost engine workflow index) w path = .moved w' run') :
      Turned engine e w path w' { e with phase := .inStage workflow index stage run' todo results }

variable {engine : Engine} {e e' : Execution} {w w' : World} {path : List Nat}

theorem enter_notes (workflow : String) (state : WorkflowState) :
    w.NotesWhole workflow (e.enter workflow state w).1 := by
  simp only [enter]
  split
  · exact ⟨[_], rfl, by simp [Record.OfWhole]⟩
  · exact ⟨[], rfl, by simp⟩

theorem turned_of_begin (fresh : e.phase = .fresh) (h : e.begin w = .moved w' e') :
    Turned engine e w path w' e' := by
  unfold begin at h
  split at h
  · cases h
    exact .refused fresh ‹_›
  · cases h
    exact .begins fresh ‹_› ((enter_notes _ _).trans (enter_notes _ _))

theorem turned_of_move (h : e.move engine w path = .moved w' e') :
    Turned engine e w path w' e' := by
  unfold move at h
  split at h
  next fresh => exact turned_of_begin fresh h
  next phase =>
    cases h
    exact .finishes phase (enter_notes _ _)
  next phase =>
    cases h
    exact .starts phase (World.notesWhole_log _ _ _)
  next output failure todo results phase =>
    cases failure with
    | none =>
      cases h
      exact .succeeds phase
    | some error =>
      cases h
      exact .fails phase ((World.notesWhole_log _ _ _).trans (enter_notes _ _))
  next run todo results unsettled phase =>
    unfold followStage at h
    split at h
    next moved =>
      cases h
      exact .inside phase (StageRun.isSettled_eq_false unsettled) moved
    next => cases h
    next => cases h
  next => cases h
  next => cases h

/-- A turn that was had: where, what it found and left, and what it noted. -/
structure Moment where
  path : List Nat
  before : Execution
  after : Execution
  news : List Record

/-- The runs of an execution, as long as nothing breaks down. Whose turn it is next is left open. -/
inductive Run (engine : Engine) (pipeline : Pipeline) (properties : Properties)
    (state : StateCell) : List Moment → Execution → Prop where
  | begins : Run engine pipeline properties state [] { pipeline, properties, state }
  | turn {past : List Moment} {e e' : Execution} {path : List Nat} {w w' : World}
      {news : List Record} (so : Run engine pipeline properties state past e)
      (moved : e.move engine w path = .moved w' e')
      (noted : w'.history = news.reverse ++ w.history) :
      Run engine pipeline properties state (past ++ [⟨path, e, e', news⟩]) e'
  | called {past : List Moment} {e : Execution}
      (so : Run engine pipeline properties state past e) (rota : Rota) :
      Run engine pipeline properties state past { e with rota }

/-- All that was noted. -/
def records (past : List Moment) : List Record := past.flatMap (·.news)

@[simp] theorem records_nil : records [] = [] := rfl

@[simp] theorem records_concat (past : List Moment) (m : Moment) :
    records (past ++ [m]) = records past ++ m.news := by simp [records]

theorem records_append (past more : List Moment) :
    records (past ++ more) = records past ++ records more := by simp [records]

theorem grows_of_move (h : e.move engine w path = .moved w' e') :
    ∃ news : List Record, w'.history = news.reverse ++ w.history := by
  cases turned_of_move h with
  | refused | succeeds => exact ⟨[], rfl⟩
  | begins _ _ noted | finishes _ noted | starts _ noted | fails _ noted =>
    obtain ⟨news, noted, -⟩ := noted
    exact ⟨news, noted⟩
  | inside phase unsettled moved => exact StageRun.grows_of_move moved

/-- The turns at some places one after the other, as long as they can be had. -/
def play (engine : Engine) : List (List Nat) → World → Execution → List Moment × World × Execution
  | [], w, e => ([], w, e)
  | path :: rest, w, e =>
    match e.move engine w path with
    | .moved w' e' =>
      let news := (w'.history.take (w'.history.length - w.history.length)).reverse
      let (past, after) := play engine rest w' e'
      (⟨path, e, e', news⟩ :: past, after)
    | _ => ([], w, e)

/-- Turns that are played go on with a run. -/
theorem Run.play {pipeline : Pipeline} {properties : Properties} {state : StateCell}
    {past : List Moment} (so : Run engine pipeline properties state past e)
    (paths : List (List Nat)) (w : World) :
    Run engine pipeline properties state (past ++ (play engine paths w e).1)
      (play engine paths w e).2.2 := by
  induction paths generalizing past e w with
  | nil => simpa [Execution.play] using so
  | cons path rest ih =>
    simp only [Execution.play]
    split
    next w' e' moved =>
      obtain ⟨news, noted⟩ := grows_of_move moved
      have told : (w'.history.take (w'.history.length - w.history.length)).reverse = news := by
        simp [noted]
      rw [told]
      simpa using ih (so.turn moved noted) w'
    next => simpa using so

/-- How far an execution of these stages may be. -/
def Phase.Fits (pipeline : Pipeline) (properties : Properties) : Phase → Prop
  | .fresh => True
  | .between workflow index todo _ =>
    properties.workflowId = .ok workflow ∧ pipeline.stages.drop index = todo
  | .inStage workflow index stage _ todo _ =>
    properties.workflowId = .ok workflow ∧
      ∃ s, s.name = stage ∧ pipeline.stages.drop index = s :: todo
  | .over (.ok report) => properties.workflowId = .ok report.workflowId
  | .over (.error error) => properties.workflowId = .error error
  | .crashed _ => False

variable {pipeline : Pipeline} {properties : Properties} {state : StateCell}
  {past : List Moment} {workflow : String} {i : Nat}

/-- What an execution is given stays the same, and its stages come in their order. -/
theorem Run.fits (so : Run engine pipeline properties state past e) :
    e.pipeline = pipeline ∧ e.properties = properties ∧ e.phase.Fits pipeline properties := by
  induction so with
  | begins => exact ⟨rfl, rfl, trivial⟩
  | called so rota ih => exact ih
  | turn so moved noted ih =>
    obtain ⟨rfl, rfl, fits⟩ := ih
    refine ⟨?_, ?_, ?_⟩
    · cases turned_of_move moved <;> rfl
    · cases turned_of_move moved <;> rfl
    cases turned_of_move moved with
    | refused fresh missing => exact missing
    | begins fresh known noted => exact ⟨known, rfl⟩
    | finishes phase noted =>
      rw [phase] at fits
      exact fits.1
    | starts phase noted =>
      rw [phase] at fits
      exact ⟨fits.1, _, rfl, fits.2⟩
    | succeeds phase =>
      rw [phase] at fits
      obtain ⟨known, s, -, rest⟩ := fits
      exact ⟨known, by rw [← List.drop_drop, rest]; rfl⟩
    | fails phase noted =>
      rw [phase] at fits
      exact fits.1
    | inside phase unsettled inner =>
      rw [phase] at fits
      exact fits

/-! ### Stages -/

/-- A turn as a stage of the pipeline has had it. -/
def Moment.inStage? (i : Nat) (m : Moment) : Option StageRun.Moment :=
  match m.before.phase, m.after.phase with
  | .inStage _ index _ run _ _, .inStage _ _ _ run' _ _ =>
    if index = i then some ⟨m.path, run, run', m.news⟩ else none
  | _, _ => none

/-- The past of a stage. -/
def inStage (i : Nat) (past : List Moment) : List StageRun.Moment := past.filterMap (·.inStage? i)

theorem inStage_concat (past : List Moment) (m : Moment) :
    inStage i (past ++ [m]) = inStage i past ++ (m.inStage? i).toList := by
  cases h : m.inStage? i <;> simp [inStage, h]

/-- A turn of the execution itself is no turn of a stage. -/
theorem inStage_concat_outside {before after : Execution} {news : List Record}
    (outside : (∀ workflow index name run todo results,
        before.phase ≠ .inStage workflow index name run todo results) ∨
      ∀ workflow index name run todo results,
        after.phase ≠ .inStage workflow index name run todo results) :
    inStage i (past ++ [⟨path, before, after, news⟩]) = inStage i past := by
  have still : Moment.inStage? i ⟨path, before, after, news⟩ = none := by
    unfold Moment.inStage?
    split
    next hb ha =>
      rcases outside with h | h
      · exact absurd hb (h _ _ _ _ _ _)
      · exact absurd ha (h _ _ _ _ _ _)
    next => rfl
  rw [inStage_concat, still, Option.toList_none, List.append_nil]

theorem inStage_concat_inside {before after : Execution} {news : List Record}
    {workflow name : String} {index : Nat} {run run' : StageRun} {todo : List Stage}
    {results : StageResults} (hb : before.phase = .inStage workflow index name run todo results)
    (ha : after.phase = .inStage workflow index name run' todo results) :
    inStage i (past ++ [⟨path, before, after, news⟩]) =
      inStage i past ++ if index = i then [⟨path, run, run', news⟩] else [] := by
  by_cases h : index = i <;> simp [inStage_concat, Moment.inStage?, hb, ha, h]

/-- Whether a stage may be one that has not begun. -/
def Phase.isBefore (i : Nat) : Phase → Bool
  | .between _ index _ _ => index ≤ i
  | .inStage _ index .. => index < i
  | _ => true

/-- Whether a stage may be one that is through. -/
def Phase.isAfter (i : Nat) : Phase → Bool
  | .between _ index _ _ => i < index
  | .inStage _ index .. => i < index
  | .over _ => true
  | _ => false

/-- How the run of a stage stands to the execution. -/
inductive Holds (i : Nat) (stage : Stage) (agent : Agent) :
    Phase → StageRun → List StageRun.Moment → Prop where
  | ahead {phase : Phase} {past : List StageRun.Moment} (idle : past = [])
      (before : phase.isBefore i = true) : Holds i stage agent phase (.fresh stage agent) past
  | underWay {workflow name : String} {run : StageRun} {todo : List Stage}
      {results : StageResults} {past : List StageRun.Moment} :
      Holds i stage agent (.inStage workflow i name run todo results) run past
  | behind {phase : Phase} {output : StageOutput} {outcome : Option StepError}
      {past : List StageRun.Moment} (after : phase.isAfter i = true) :
      Holds i stage agent phase (.settled output outcome) past

/-- A run of an execution is made of runs of its stages. -/
theorem Run.stage {stage : Stage} (so : Run engine pipeline properties state past e)
    (known : properties.workflowId = .ok workflow) (hs : pipeline.stages[i]? = some stage) :
    ∃ run, StageRun.Run stage pipeline.agent (outermost engine workflow i) (inStage i past) run ∧
      Holds i stage pipeline.agent e.phase run (inStage i past) := by
  induction so with
  | begins => exact ⟨_, .begins _, .ahead rfl rfl⟩
  | called so rota ih => exact ih
  | @turn past e e' path w w' news so moved noted ih =>
    obtain ⟨rfl, rfl, fits⟩ := so.fits
    obtain ⟨run, inner, holds⟩ := ih
    cases turned_of_move moved with
    | refused phase | begins phase =>
      rw [inStage_concat_outside (.inl (by simp [phase]))]
      rw [phase] at holds
      cases holds with
      | ahead idle before => exact ⟨_, inner, .ahead idle (by simp [Phase.isBefore])⟩
      | behind after => cases after
    | finishes phase =>
      rw [inStage_concat_outside (.inl (by simp [phase]))]
      rw [phase] at holds
      cases holds with
      | ahead idle before => exact ⟨_, inner, .ahead idle rfl⟩
      | behind after => exact ⟨_, inner, .behind rfl⟩
    | @starts _ index stage' todo results _ phase =>
      rw [inStage_concat_outside (.inl (by simp [phase]))]
      rw [phase] at holds fits
      cases holds with
      | ahead idle before =>
        by_cases hi : index = i
        · subst hi
          have first : e.pipeline.stages[index]? = some stage' := by
            simpa using congrArg List.head? fits.2
          obtain rfl := Option.some.inj (hs.symm.trans first)
          exact ⟨_, inner, .underWay⟩
        · have before : index ≤ i := by simpa [Phase.isBefore] using before
          exact ⟨_, inner, .ahead idle (by simp [Phase.isBefore]; omega)⟩
      | behind after => exact ⟨_, inner, .behind after⟩
    | @succeeds _ index _ _ _ _ phase =>
      rw [inStage_concat_outside (.inr (by simp))]
      rw [phase] at holds
      cases holds with
      | ahead idle before => exact ⟨_, inner, .ahead idle before⟩
      | underWay => exact ⟨_, inner, .behind (by simp [Phase.isAfter])⟩
      | behind after =>
        have after : i < index := by simpa [Phase.isAfter] using after
        exact ⟨_, inner, .behind (by simp [Phase.isAfter]; omega)⟩
    | fails phase =>
      rw [inStage_concat_outside (.inr (by simp))]
      rw [phase] at holds
      cases holds with
      | ahead idle before => exact ⟨_, inner, .ahead idle rfl⟩
      | underWay => exact ⟨_, inner, .behind rfl⟩
      | behind after => exact ⟨_, inner, .behind rfl⟩
    | @inside workflow' index _ _ _ _ _ _ phase unsettled moved =>
      rw [inStage_concat_inside phase rfl]
      rw [phase] at holds fits
      obtain rfl : workflow = workflow' := by simpa using known.symm.trans fits.1
      cases holds with
      | ahead idle before =>
        have before : index < i := by simpa [Phase.isBefore] using before
        simp only [show index ≠ i by omega, if_false, List.append_nil]
        exact ⟨_, inner, .ahead idle (by simpa [Phase.isBefore] using before)⟩
      | underWay =>
        simp only [if_true]
        exact ⟨_, inner.turn moved noted, .underWay⟩
      | behind after =>
        have after : i < index := by simpa [Phase.isAfter] using after
        simp only [show index ≠ i by omega, if_false, List.append_nil]
        exact ⟨_, inner, .behind (by simpa [Phase.isAfter] using after)⟩

theorem Run.inStage_missing (so : Run engine pipeline properties state past e)
    (missing : pipeline.stages[i]? = none) : inStage i past = [] := by
  induction so with
  | begins => rfl
  | called so rota ih => exact ih
  | @turn past e e' path w w' news so moved noted ih =>
    obtain ⟨-, -, fits⟩ := so.fits
    cases turned_of_move moved with
    | refused phase | begins phase | finishes phase | starts phase =>
      rw [inStage_concat_outside (.inl (by simp [phase])), ih]
    | succeeds phase | fails phase =>
      rw [inStage_concat_outside (.inr (by simp)), ih]
    | @inside _ index _ _ _ _ _ _ phase unsettled moved =>
      rw [phase] at fits
      obtain ⟨-, s, -, rest⟩ := fits
      have hi : index ≠ i := by
        rintro rfl
        have first : pipeline.stages[index]? = some s := by simpa using congrArg List.head? rest
        rw [missing] at first
        cases first
      rw [inStage_concat_inside phase rfl, ih]
      simp [hi]

/-- What is noted at a stage or below it is noted by the stage. -/
theorem Run.recordsAt_inStage (so : Run engine pipeline properties state past e)
    (known : properties.workflowId = .ok workflow) (i : Nat) (way : List Nat) :
    recordsAt ⟨workflow, i :: way⟩ (records past) =
      recordsAt ⟨workflow, i :: way⟩ (StageRun.records (inStage i past)) := by
  induction so with
  | begins => rfl
  | called so rota ih => exact ih
  | @turn past e e' path w w' news so moved noted ih =>
    obtain ⟨rfl, rfl, fits⟩ := so.fits
    rw [records_concat, recordsAt_append, ih]
    cases turned_of_move moved with
    | refused phase =>
      have silent : w.NotesWhole workflow w := .nothing
      rw [inStage_concat_outside (.inl (by simp [phase])), silent.recordsAt noted, List.append_nil]
    | begins phase _ notes | finishes phase notes | starts phase notes =>
      rw [inStage_concat_outside (.inl (by simp [phase])), notes.recordsAt noted, List.append_nil]
    | succeeds phase =>
      have silent : w.NotesWhole workflow w := .nothing
      rw [inStage_concat_outside (.inr (by simp)), silent.recordsAt noted, List.append_nil]
    | fails phase notes =>
      rw [inStage_concat_outside (.inr (by simp)), notes.recordsAt noted, List.append_nil]
    | @inside workflow' index _ _ _ _ _ _ phase unsettled inner =>
      rw [inStage_concat_inside phase rfl]
      by_cases hi : index = i
      · simp [hi]
      · have elsewhere : recordsAt ⟨workflow, i :: way⟩ news = [] := by
          refine recordsAt_elsewhere fun r hr hp => ?_
          obtain ⟨way', hw⟩ := (StageRun.place_of_moved inner noted).imp fun _ below => below r hr
          have same : i :: way = index :: way' := by
            simpa [Place.below] using congrArg (·.path) (hp.symm.trans hw)
          exact hi (List.cons.inj same).1.symm
        simp [hi, elsewhere]

/-! ### Any depth -/

/-- The stage or branch at a place of the pipeline, if it is under way. -/
def stageAt? (e : Execution) : List Nat → Option StageRun
  | [] => none
  | i :: way =>
    match e.phase with
    | .inStage _ index _ run _ _ => if index = i then run.at? way else none
    | _ => none

/-- What is around a stage or branch that is under way. -/
def contextAt (engine : Engine) (e : Execution) (path : List Nat) : Context :=
  match e.phase with
  | .inStage workflow index _ run _ _ =>
    StageRun.contextAt (outermost engine workflow index) run path.tail
  | _ => outermost engine "" 0

/-- The past of a stage or branch. -/
def pastAt (past : List Moment) : List Nat → List StageRun.Moment
  | [] => []
  | i :: way => StageRun.along way (inStage i past)

/-- How the run of a stage or branch stands to the execution. -/
inductive Stands (engine : Engine) (e : Execution) (path : List Nat) (stage : Stage)
    (agent : Agent) : Context → StageRun → List StageRun.Moment → Prop where
  | unborn {c : Context} {past : List StageRun.Moment} (idle : past = [])
      (absent : e.stageAt? path = none ∨ e.stageAt? path = some (.fresh stage agent)) :
      Stands engine e path stage agent c (.fresh stage agent) past
  | there {c : Context} {run : StageRun} {past : List StageRun.Moment}
      (there : e.stageAt? path = some run) (around : e.contextAt engine path = c) :
      Stands engine e path stage agent c run past
  | through {c : Context} {output : StageOutput} {outcome : Option StepError}
      {past : List StageRun.Moment}
      (through : ∀ run, e.stageAt? path = some run → run = .received output) :
      Stands engine e path stage agent c (.settled output outcome) past

theorem stageAt?_eq_some {run : StageRun} {i : Nat} {way : List Nat}
    (h : e.stageAt? (i :: way) = some run) :
    ∃ workflow name whole todo results,
      e.phase = .inStage workflow i name whole todo results ∧ whole.at? way = some run := by
  simp only [stageAt?] at h
  split at h
  next phase =>
    split at h
    next hi =>
      subst hi
      exact ⟨_, _, _, _, _, phase, h⟩
    next => cases h
  next => cases h

theorem stageAt?_inStage {workflow name : String} {whole : StageRun} {todo : List Stage}
    {results : StageResults} (way : List Nat)
    (h : e.phase = .inStage workflow i name whole todo results) :
    e.stageAt? (i :: way) = whole.at? way := by
  simp [stageAt?, h]

/-- Nothing is under way at a stage that has not begun or is through. -/
theorem stageAt?_outside (way : List Nat)
    (h : e.phase.isBefore i = true ∨ e.phase.isAfter i = true) : e.stageAt? (i :: way) = none := by
  simp only [stageAt?]
  split
  next phase =>
    simp only [phase, Phase.isBefore, Phase.isAfter, decide_eq_true_eq] at h
    rw [if_neg (by omega)]
  next => rfl

/-- What is under way is declared, and the workflow is known by then. -/
theorem Run.declared {run : StageRun} (so : Run engine pipeline properties state past e)
    (h : e.stageAt? path = some run) :
    ∃ workflow stage around, properties.workflowId = .ok workflow ∧
      pipeline.stageAt? path = some (stage, around) := by
  cases path with
  | nil => cases h
  | cons i way =>
    obtain ⟨workflow, name, whole, todo, results, phase, there⟩ := stageAt?_eq_some h
    obtain ⟨-, -, fits⟩ := so.fits
    rw [phase] at fits
    obtain ⟨known, s, -, rest⟩ := fits
    have hs : pipeline.stages[i]? = some s := by simpa using congrArg List.head? rest
    obtain ⟨run, inner, holds⟩ := so.stage known hs
    rw [phase] at holds
    cases holds with
    | ahead idle before => simp [Phase.isBefore] at before
    | behind after => simp [Phase.isAfter] at after
    | underWay =>
      obtain ⟨stage, around, hp⟩ := inner.declared there
      exact ⟨workflow, stage, around, known, by simpa [Pipeline.stageAt?, hs] using hp⟩

theorem Run.inStage_unknown {error : ExecutionError}
    (so : Run engine pipeline properties state past e)
    (unknown : properties.workflowId = .error error) (i : Nat) : inStage i past = [] := by
  induction so with
  | begins => rfl
  | called so rota ih => exact ih
  | @turn past e e' path w w' news so moved noted ih =>
    obtain ⟨-, -, fits⟩ := so.fits
    cases turned_of_move moved with
    | refused phase | begins phase | finishes phase | starts phase =>
      rw [inStage_concat_outside (.inl (by simp [phase])), ih]
    | succeeds phase | fails phase =>
      rw [inStage_concat_outside (.inr (by simp)), ih]
    | inside phase unsettled inner =>
      rw [phase] at fits
      cases unknown.symm.trans fits.1

/-- A run of an execution is made of runs of the stages at any depth. -/
theorem Run.descend {stage : Stage} {agent : Agent}
    (so : Run engine pipeline properties state past e)
    (known : properties.workflowId = .ok workflow)
    (hp : pipeline.stageAt? path = some (stage, agent)) :
    ∃ c run, StageRun.Run stage agent c (pastAt past path) run ∧ c.engine = engine ∧
      c.place = ⟨workflow, path⟩ ∧ Stands engine e path stage agent c run (pastAt past path) := by
  cases path with
  | nil => cases hp
  | cons i way =>
    cases hs : pipeline.stages[i]? with
    | none => simp [Pipeline.stageAt?, hs] at hp
    | some top =>
      simp only [Pipeline.stageAt?, hs] at hp
      obtain ⟨whole, inner, holds⟩ := so.stage known hs
      obtain ⟨c, run, deep, engine, place, stands⟩ := inner.descend hp
      refine ⟨c, run, deep, engine, by simpa [Place.below] using place, ?_⟩
      change Stands _ e (i :: way) stage agent c run (StageRun.along way (inStage i past))
      generalize hq : e.phase = phase at holds
      cases holds with
      | ahead idle before =>
        rw [idle, StageRun.along_nil] at deep ⊢
        obtain rfl := deep.of_idle
        exact .unborn rfl (.inl (stageAt?_outside way (.inl (hq ▸ before))))
      | @underWay workflow' _ _ _ _ _ =>
        have down := stageAt?_inStage way hq
        obtain rfl : workflow = workflow' := by
          have fits := so.fits.2.2
          rw [hq] at fits
          simpa using known.symm.trans fits.1
        cases stands with
        | unborn idle absent => exact .unborn idle (down ▸ absent)
        | there deepThere around =>
          exact .there (down ▸ deepThere) (by simpa [contextAt, hq] using around)
        | through through => exact .through (down ▸ through)
      | behind after =>
        have down := stageAt?_outside way (.inr (hq ▸ after))
        cases stands with
        | unborn idle absent => exact .unborn idle (.inl down)
        | there deepThere around =>
          obtain rfl := StageRun.at?_settled deepThere
          exact .through (by simp [down])
        | through _ => exact .through (by simp [down])

/-- What is noted at a stage or branch is noted by its own run. -/
theorem Run.recordsAt_pastAt (so : Run engine pipeline properties state past e)
    (known : properties.workflowId = .ok workflow) (i : Nat) (way : List Nat) :
    recordsAt ⟨workflow, i :: way⟩ (records past) =
      recordsAt ⟨workflow, i :: way⟩ (StageRun.records (pastAt past (i :: way))) := by
  rw [so.recordsAt_inStage known, pastAt]
  cases hs : pipeline.stages[i]? with
  | none => simp [so.inStage_missing hs]
  | some top =>
    obtain ⟨whole, inner, -⟩ := so.stage known hs
    simpa [Place.below] using inner.recordsAt_along way

theorem Run.marksAt_pastAt (so : Run engine pipeline properties state past e)
    (known : properties.workflowId = .ok workflow) (i : Nat) (way : List Nat) :
    marksAt ⟨workflow, i :: way⟩ (records past) =
      marksAt ⟨workflow, i :: way⟩ (StageRun.records (pastAt past (i :: way))) := by
  rw [marksAt_eq, marksAt_eq, so.recordsAt_pastAt known]

theorem Run.declared_of_past {m : StageRun.Moment}
    (so : Run engine pipeline properties state past e) (h : m ∈ pastAt past path) :
    ∃ workflow stage around, properties.workflowId = .ok workflow ∧
      pipeline.stageAt? path = some (stage, around) := by
  cases path with
  | nil => cases h
  | cons i way =>
    cases hw : properties.workflowId with
    | error error =>
      rw [pastAt, so.inStage_unknown hw, StageRun.along_nil] at h
      cases h
    | ok workflow =>
      cases hs : pipeline.stages[i]? with
      | none =>
        rw [pastAt, so.inStage_missing hs, StageRun.along_nil] at h
        cases h
      | some top =>
        obtain ⟨whole, inner, -⟩ := so.stage hw hs
        cases hp : top.at? pipeline.agent way with
        | none =>
          rw [pastAt, inner.along_missing hp] at h
          cases h
        | some found => exact ⟨workflow, _, _, rfl, by simpa [Pipeline.stageAt?, hs] using hp⟩

theorem Run.pastAt_missing (so : Run engine pipeline properties state past e)
    (missing : pipeline.stageAt? path = none) : pastAt past path = [] := by
  refine List.eq_nil_iff_forall_not_mem.mpr fun m mem => ?_
  obtain ⟨workflow, stage, around, -, there⟩ := so.declared_of_past mem
  rw [missing] at there
  cases there

/-- Records tell of the workflow as a whole, or bear the place of a stage. -/
theorem Run.placed {r : Record} (so : Run engine pipeline properties state past e)
    (h : r ∈ records past) (notable : r.event.isAside = false) :
    (∃ state, r.event = .entered state) ∨ ∃ workflow i way,
      properties.workflowId = .ok workflow ∧ r.place = ⟨workflow, i :: way⟩ := by
  induction so with
  | begins => cases h
  | called so rota ih => exact ih h
  | @turn past e e' path w w' news so moved noted ih =>
    obtain ⟨-, -, fits⟩ := so.fits
    rw [records_concat] at h
    rcases List.mem_append.mp h with earlier | now
    · exact ih earlier
    have whole {workflow : String} (notes : w.NotesWhole workflow w') :
        ∃ state, r.event = .entered state := by
      rcases (notes.of_news noted r now).2 with aside | ⟨-, entered⟩
      · rw [notable] at aside
        cases aside
      · exact entered
    cases turned_of_move moved with
    | refused | succeeds =>
      have silent : w.NotesWhole "" w := .nothing
      exact .inl (whole silent)
    | begins _ _ notes | finishes _ notes | starts _ notes | fails _ notes =>
      exact .inl (whole notes)
    | @inside workflow index _ _ _ _ _ _ phase unsettled inner =>
      rw [phase] at fits
      obtain ⟨way, hw⟩ := (StageRun.place_of_moved inner noted).imp fun _ below => below r now
      exact .inr ⟨workflow, index, way, fits.1, by simpa [Place.below] using hw⟩

/-- What is noted besides asides tells of the whole, or of a stage that is declared. -/
theorem Run.located {r : Record} (so : Run engine pipeline properties state past e)
    (h : r ∈ records past) (notable : r.event.isAside = false) :
    (∃ state, r.event = .entered state) ∨ ∃ workflow i way stage around,
      properties.workflowId = .ok workflow ∧ r.place = ⟨workflow, i :: way⟩ ∧
        pipeline.stageAt? (i :: way) = some (stage, around) := by
  rcases so.placed h notable with whole | ⟨workflow, i, way, known, place⟩
  · exact .inl whole
  have mark : r.event ∈ marksAt ⟨workflow, i :: way⟩ (records past) :=
    place ▸ mem_marksAt h notable
  rw [so.marksAt_pastAt known] at mark
  cases hp : pipeline.stageAt? (i :: way) with
  | none =>
    rw [so.pastAt_missing hp] at mark
    cases mark
  | some declared => exact .inr ⟨workflow, i, way, _, _, known, place, hp⟩

/-- A stage that is in the middle of something is where its run is. -/
theorem Stands.of_there {stage : Stage} {agent : Agent} {c : Context} {run run' : StageRun}
    {past : List StageRun.Moment} (stands : Stands engine e path stage agent c run past)
    (there : e.stageAt? path = some run') (begun : ∀ s a, run' ≠ .fresh s a)
    (live : ∀ output, run' ≠ .received output) : run = run' ∧ e.contextAt engine path = c := by
  cases stands with
  | unborn idle absent =>
    rcases absent with absent | fresh
    · cases there.symm.trans absent
    · exact absurd (Option.some.inj (there.symm.trans fresh)) (begun _ _)
  | there same around => exact ⟨Option.some.inj (same.symm.trans there), around⟩
  | through through => exact absurd (through _ there) (live _)

end Execution

/-! ### A run with two branches -/

namespace Execution.Duo

/-- Containers bear the names of their images. -/
def engine : Engine where
  policy := ⟨1, .ofSeconds 1, .ofSeconds 1, 1, .ofSeconds 1⟩
  runtime :=
    { pull := fun _ => .done (.ok ())
      start := fun image => .done (.ok image)
      exec := fun _ _ => .done (.ok .finished)
      stop := fun _ => .done (.ok ()) }

def pipeline : Pipeline where
  agent := .none
  stages := [
    { name := "build"
      parallel := [
        { name := "left", agent := some (.docker "left"), steps := [.single "pass" ""] },
        { name := "right", agent := some (.docker "right"), steps := [.single "fail" ""] }] }]

def properties : Properties := [(workflowKey, .string "duo")]

def plugin : Plugin where
  methods := [("pass", "pass"), ("fail", "fail")]
  invoke method _ := .done (if method = "fail" then .error (.because "broken") else .ok none)

def world : World := { registry := (Registry.empty.register "duo" plugin).1 }

/-- The right branch fails when the left one has just got its container. -/
def turns : List (List Nat) :=
  [[], [], [], [0], [0], [0], [1], [1], [1], [1], [1], [1], [1], [0], [0], [0], [], []]

def played : List Moment × World × Execution := play engine turns world { pipeline, properties }

theorem run : Run engine pipeline properties ⟨.pending, 0⟩ played.1 played.2.2 :=
  Run.begins.play turns world

end Execution.Duo
end PipelineRunner
