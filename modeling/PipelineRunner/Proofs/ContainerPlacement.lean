import PipelineRunner.Proofs.ContainerTurns

/-! Where containers come up. What a stage runs in is told by the document alone: by the agent that
is declared nearest to it on the way down. A run fetches an image in the one turn in which a stage
comes to steps of its own, and leaves it only where there is no such agent or where a branch around
has been cancelled. -/

namespace PipelineRunner

/-! ### Agents -/

namespace Pipeline

variable {p : Pipeline} {path above below : List Nat} {i : Nat} {stage : Stage}
  {agent agent' around : Agent}

/-- The agent that is declared right at a place; the pipeline stands at the beginning of all
ways. -/
def declaredAt? (p : Pipeline) : List Nat → Option Agent
  | [] => some p.agent
  | i :: way => (p.stageAt? (i :: way)).bind fun (stage, _) => stage.agent

/-- This agent is declared on the way down to a place, and none is declared behind it. -/
def Nearest (p : Pipeline) (path : List Nat) (agent : Agent) : Prop :=
  ∃ above below, path = above ++ below ∧ p.declaredAt? above = some agent ∧
    ∀ way, way <+: below → way ≠ [] → p.declaredAt? (above ++ way) = none

theorem declaredAt?_of_stageAt? (there : p.stageAt? path = some (stage, around)) :
    p.declaredAt? path = stage.agent := by
  cases path with
  | nil => cases there
  | cons i way => simp [declaredAt?, there]

theorem Nearest.here (declared : p.declaredAt? path = some agent) : p.Nearest path agent := by
  refine ⟨path, [], by simp, declared, fun way way_prefix some => ?_⟩
  exact absurd (List.prefix_nil.mp way_prefix) some

theorem Nearest.further (nearest : p.Nearest path agent)
    (bare : p.declaredAt? (path ++ [i]) = none) : p.Nearest (path ++ [i]) agent := by
  obtain ⟨above, below, rfl, declared, none_behind⟩ := nearest
  refine ⟨above, below ++ [i], by simp, declared, fun way way_prefix some => ?_⟩
  rcases List.prefix_concat_iff.mp way_prefix with rfl | shorter
  · simpa using bare
  · exact none_behind way shorter some

/-- Behind a declaration the nearest one is that very one or further down. -/
theorem Nearest.at_or_below (nearest : p.Nearest (above ++ below) agent)
    (declared : p.declaredAt? above = some agent') :
    ∃ way, way <+: below ∧ p.declaredAt? (above ++ way) = some agent := by
  obtain ⟨above', below', same, declared', none_behind⟩ := nearest
  rcases List.append_eq_append_iff.mp same with ⟨way, rfl, rfl⟩ | ⟨way, rfl, rfl⟩
  · exact ⟨way, List.prefix_append _ _, declared'⟩
  · by_cases some : way = []
    · subst some
      exact ⟨[], List.nil_prefix, by simpa using declared'⟩
    · have nothing := none_behind way (List.prefix_append _ _) some
      rw [declared] at nothing
      cases nothing

theorem Nearest.unique (nearest : p.Nearest path agent) (nearest' : p.Nearest path agent') :
    agent = agent' := by
  obtain ⟨above, below, rfl, declared, none_behind⟩ := nearest
  obtain ⟨way, way_prefix, declared'⟩ := nearest'.at_or_below declared
  by_cases some : way = []
  · subst some
    rw [List.append_nil, declared] at declared'
    exact Option.some.inj declared'
  · rw [none_behind way way_prefix some] at declared'
    cases declared'

theorem Nearest.down (there : p.stageAt? (path ++ [i]) = some (stage, around))
    (nearest : p.Nearest path around) : p.Nearest (path ++ [i]) (stage.effectiveAgent around) := by
  have declared := declaredAt?_of_stageAt? there
  unfold Stage.effectiveAgent
  cases own : stage.agent with
  | none => exact nearest.further (declared.trans own)
  | some agent => exact .here (declared.trans own)

/-- What is handed down to a stage is the nearest agent right above it. -/
theorem nearest_above (there : p.stageAt? (path ++ [i]) = some (stage, around)) :
    p.Nearest path around := by
  induction path using List.reverseRecOn generalizing i stage around with
  | nil =>
    simp only [List.nil_append, stageAt?] at there
    split at there
    next =>
      obtain ⟨rfl, rfl⟩ := Prod.mk.inj (Option.some.inj there)
      exact .here rfl
    next => cases there
  | append_singleton init j ih =>
    obtain ⟨parent, outer, there', -, rfl⟩ := Execution.stageAt?_concat (by simp) there
    exact (ih there').down there'

/-- The agent that a stage runs with is the one declared nearest to it. -/
theorem nearest_effectiveAgent (there : p.stageAt? path = some (stage, around)) :
    p.Nearest path (stage.effectiveAgent around) := by
  rcases List.eq_nil_or_concat path with rfl | ⟨init, i, rfl⟩
  · cases there
  · rw [List.concat_eq_append] at there ⊢
    exact (nearest_above there).down there

end Pipeline

/-- An image is one with its tag that an agent names. -/
theorem Agent.image?_eq_some {agent : Agent} {image : String} :
    agent.image? = some image ↔
      ∃ declared, agent = .docker declared ∧ image = Image.normalize declared := by
  cases agent with
  | none => simp [image?]
  | docker declared => simp [image?, eq_comm]

/-- An event of a container is warranted at a place: a stage with steps of its own is declared
there, the nearest agent is a docker agent, and no image is told of but that of this agent. -/
def Pipeline.Warrants (p : Pipeline) (path : List Nat) (event : Event) : Prop :=
  ∃ stage around declared, p.stageAt? path = some (stage, around) ∧ stage.steps ≠ [] ∧
    p.Nearest path (.docker declared) ∧
    ∀ image, event.image? = some image → image = Image.normalize declared

/-- A stage that runs in a container has a docker agent nearest to it. -/
theorem Pipeline.nearest_docker {p : Pipeline} {path : List Nat} {stage : Stage} {around : Agent}
    {image : String} (declared : p.stageAt? path = some (stage, around))
    (docker : (stage.effectiveAgent around).image? = some image) :
    ∃ named, p.Nearest path (.docker named) ∧ image = Image.normalize named := by
  obtain ⟨named, agent, rfl⟩ := Agent.image?_eq_some.mp docker
  exact ⟨named, agent ▸ nearest_effectiveAgent declared, rfl⟩

theorem Pipeline.warrants {p : Pipeline} {path : List Nat} {stage : Stage} {around : Agent}
    {event : Event} {events : List Event}
    (declared : p.stageAt? path = some (stage, around)) (some_steps : stage.steps ≠ [])
    (befit : Befit (stage.effectiveAgent around) events) (of_container : event.isOfContainer = true)
    (mem : event ∈ events) : p.Warrants path event := by
  obtain ⟨image, docker, named⟩ := befit event mem of_container
  obtain ⟨name, nearest, rfl⟩ := nearest_docker declared docker
  refine ⟨stage, around, name, declared, some_steps, nearest, fun image told => ?_⟩
  rw [named image told, Image.normalize_normalize]

/-! ### Turns of an execution -/

/-- A join around a place has received a branch with a failure. -/
def Place.Cancelled (place : Place) (records : List Record) : Prop :=
  ∃ above i below j, place.path = above ++ i :: below ∧
    .received j true ∈ marksAt ⟨place.workflow, above⟩ records

namespace Execution

/-- What a turn notes, whatever becomes of the execution by it. -/
def news (engine : Engine) (e : Execution) (w : World) (path : List Nat) : List Record :=
  match (e.move engine w path).left? with
  | some w' => (w'.history.take (w'.history.length - w.history.length)).reverse
  | none => []

/-- A turn goes to a stage or branch that comes to its own steps next, or to their lack. -/
def ReachesSteps (e : Execution) (path : List Nat) (place : Place) : Prop :=
  e.properties.workflowId = .ok place.workflow ∧ place.path.tail = path ∧
    ∃ run, e.stageAt? place.path = some run ∧ run.isAtSteps = true

variable {engine : Engine} {pipeline : Pipeline} {properties : Properties} {state : StateCell}
  {past : List Moment} {e : Execution} {path : List Nat} {w w' : World} {workflow : String}
  {i : Nat} {r : Record} {place : Place} {added : List Record} {run deep : StageRun} {stage : Stage}
  {agent around : Agent} {branches : Option StageResults} {own : OwnSteps} {events : List Event}

theorem news_of_noted (left : (e.move engine w path).left? = some w')
    (noted : w'.history = added.reverse ++ w.history) : e.news engine w path = added := by
  simp [news, left, noted]

theorem left?_of_working
    (there : e.stageAt? (i :: path) = some (.working stage agent branches own)) :
    (e.move engine w path).left? =
      (own.move (e.contextAt engine (i :: path)) stage agent w).left? := by
  obtain ⟨workflow, name, whole, todo, results, phase, below⟩ := stageAt?_eq_some there
  have around : e.contextAt engine (i :: path) =
      StageRun.contextAt (outermost engine workflow i) whole path := by
    simp [contextAt, phase]
  have unsettled : whole.isSettled = false := by
    cases whole with
    | settled => cases StageRun.at?_settled below
    | _ => rfl
  rw [around, ← StageRun.left?_of_working below, move_unsettled phase unsettled]
  cases whole.move (outermost engine workflow i) w path with
  | ended w₁ value => cases value
  | _ => rfl

/-- A turn of own steps notes at their place what they tell of. -/
theorem news_of_working
    (there : e.stageAt? (i :: path) = some (.working stage agent branches own))
    (left : (own.move (e.contextAt engine (i :: path)) stage agent w).left? = some w')
    (notes : w.Notes place events w') :
    (∀ r ∈ e.news engine w path, r.place = place) ∧ marks (e.news engine w path) = events := by
  obtain ⟨added, noted, here, marked⟩ := notes
  rw [news_of_noted ((left?_of_working there).trans left) noted]
  exact ⟨here, marked⟩

/-- What own steps begin their turn with is noted in it. -/
theorem exists_news {event : Event}
    (there : e.stageAt? (i :: path) = some (.working stage agent branches own))
    (left : (own.move (e.contextAt engine (i :: path)) stage agent w).left? = some w')
    (notes : w.Notes (e.contextAt engine (i :: path)).place (event :: events) w')
    (here : (e.contextAt engine (i :: path)).place = place) :
    ∃ r ∈ e.news engine w path, r.place = place ∧ r.event = event := by
  obtain ⟨placed, marked⟩ := news_of_working there left notes
  have told : event ∈ marks (e.news engine w path) := by simp [marked]
  simp only [marks, List.mem_filter, List.mem_map] at told
  obtain ⟨⟨r, mem, told⟩, -⟩ := told
  exact ⟨r, mem, (placed r mem).trans here, told⟩

/-- What a turn notes of own steps it notes where they are under way. -/
theorem working_of_news (mem : r ∈ e.news engine w path) (own : r.event.isOwn = true) :
    ∃ i stage agent branches own,
      e.stageAt? (i :: path) = some (.working stage agent branches own) := by
  cases turn : e.move engine w path with
  | blocked => simp [news, turn, Turn.left?] at mem
  | ended w₁ value => cases value
  | moved w₁ e₁ =>
    obtain ⟨added, noted⟩ := grows_of_move turn
    rw [news_of_noted (by rw [turn, Turn.left?]) noted] at mem
    have whole {workflow : String} (notes : w.NotesWhole workflow w₁) : False :=
      notes.not_ofStage noted mem (isOfStage_of_isOwn own)
    cases turned_of_move turn with
    | refused | succeeds =>
      have still : w.NotesWhole "" w := .nothing
      exact (whole still).elim
    | begins _ _ notes | finishes _ notes | starts _ notes | fails _ notes =>
      exact (whole notes).elim
    | @inside _ index _ run _ _ _ _ phase unsettled inner =>
      obtain ⟨stage, agent, branches, own, there⟩ := StageRun.working_of_news inner noted mem own
      exact ⟨index, stage, agent, branches, own, by rw [stageAt?_inStage path phase, there]⟩
  | crashed w₁ reason names =>
    unfold move at turn
    split at turn
    next =>
      unfold begin at turn
      split at turn <;> cases turn
    next => cases turn
    next => cases turn
    next failure _ _ _ => cases failure <;> cases turn
    next workflow index name whole todo results _ phase =>
      cases inner : whole.move (outermost engine workflow index) w path with
      | crashed w₂ why inner_names =>
        obtain ⟨stage, agent, branches, own, there⟩ := StageRun.working_of_crashed inner
        exact ⟨index, stage, agent, branches, own, by rw [stageAt?_inStage path phase, there]⟩
      | _ => simp [inner, followStage] at turn
    next => cases turn
    next => cases turn

/-! ### Runs -/

/-- A stage with steps has them entered where it comes to them. -/
theorem Run.entering_of_reached (so : Run engine pipeline properties state past e)
    (known : properties.workflowId = .ok workflow)
    (declared : pipeline.stageAt? path = some (stage, around)) (there : e.stageAt? path = some run)
    (at_steps : run.isAtSteps = true) (some_steps : stage.steps ≠ []) :
    ∃ branches, run = .working stage (stage.effectiveAgent around) branches .entering := by
  obtain ⟨c, run', inner, -, -, stands⟩ := so.descend known declared
  cases stands with
  | unborn idle absent =>
    rcases absent with absent | fresh
    · cases there.symm.trans absent
    · obtain rfl := Option.some.inj (there.symm.trans fresh)
      simp [StageRun.isAtSteps, some_steps] at at_steps
  | there same =>
    obtain rfl := Option.some.inj (there.symm.trans same)
    exact StageRun.entering_of_atSteps inner.shape at_steps some_steps
  | through through =>
    rw [through run there] at at_steps
    cases at_steps

/-- What is under way at a place is a run of the stage that is declared there. -/
theorem Run.standing (so : Run engine pipeline properties state past e)
    (there : e.stageAt? path = some run) (begun : ∀ s a, run ≠ .fresh s a)
    (live : ∀ output, run ≠ .received output) :
    ∃ workflow stage around, properties.workflowId = .ok workflow ∧
      pipeline.stageAt? path = some (stage, around) ∧
      (e.contextAt engine path).place = ⟨workflow, path⟩ ∧
      StageRun.Run stage around (e.contextAt engine path) (pastAt past path) run ∧
      marksAt ⟨workflow, path⟩ (StageRun.records (pastAt past path)) =
        marksAt ⟨workflow, path⟩ (records past) := by
  obtain ⟨workflow, stage, around, known, declared⟩ := so.declared there
  obtain ⟨c, run, inner, -, place, stands⟩ := so.descend known declared
  obtain ⟨rfl, rfl⟩ := stands.of_there there begun live
  refine ⟨workflow, stage, around, known, declared, place, inner, ?_⟩
  cases path with
  | nil => cases there
  | cons i way => exact (so.marksAt_pastAt known i way).symm

/-- The token of a stage under way is cancelled exactly if a join around it has received a branch
with a failure. -/
theorem Run.cancelled_iff (so : Run engine pipeline properties state past e)
    (known : properties.workflowId = .ok place.workflow)
    (there : e.stageAt? place.path = some deep) :
    (e.contextAt engine place.path).cancelled = true ↔ place.Cancelled (records past) := by
  obtain ⟨workflow, path⟩ := place
  dsimp only at known there ⊢
  constructor
  · intro cancelled
    cases path with
    | nil => cases there
    | cons i way =>
      obtain ⟨workflow', name, whole, todo, results, phase, below⟩ := stageAt?_eq_some there
      simp only [contextAt, phase, List.tail_cons] at cancelled
      obtain ⟨above, j, rest, s, a, runs, failure, rfl, join, failed⟩ :=
        StageRun.failing_of_cancelled cancelled rfl
      have joining : e.stageAt? (i :: above) = some (.joining s a runs failure) := by
        rw [stageAt?_inStage above phase, join]
      obtain ⟨workflow'', stage, around, known', -, here, inner, marked⟩ :=
        so.standing joining (by simp) (by simp)
      obtain rfl : workflow'' = workflow := by simpa using known'.symm.trans known
      have blamed := inner.blames
      rw [here, marked] at blamed
      obtain ⟨k, received⟩ := blamed failed
      exact ⟨i :: above, j, rest, k, rfl, received⟩
  · rintro ⟨above, i, below, j, rfl, received⟩
    obtain ⟨r, mem, here, event, -⟩ := exists_of_mem_marksAt received
    have at_ : r.place.path = above := by rw [here]
    subst at_
    exact so.cancelled_below mem event there

/-- The own steps of a stage are under way at its place. -/
structure Works (engine : Engine) (pipeline : Pipeline) (properties : Properties)
    (past : List Moment) (e : Execution) (place : Place) (stage : Stage) (agent : Agent)
    (own : OwnSteps) : Prop where
  known : properties.workflowId = .ok place.workflow
  there : ∃ branches, e.stageAt? place.path = some (.working stage agent branches own)
  declared : ∃ around, pipeline.stageAt? place.path = some (stage, around) ∧
    agent = stage.effectiveAgent around
  here : (e.contextAt engine place.path).place = place
  some_steps : stage.steps ≠ []
  sound : own.Sound (e.contextAt engine place.path) stage agent
  custody : ∃ receipts noted, marksAt place (records past) = receipts ++ noted ∧
    StageRun.Receipts receipts ∧ Custody stage agent place.workflow own noted

/-- Own steps that are under way are those of the stage that is declared there, with its agent. -/
theorem Run.works (so : Run engine pipeline properties state past e)
    (there : e.stageAt? path = some (.working stage agent branches own)) :
    ∃ workflow, Works engine pipeline properties past e ⟨workflow, path⟩ stage agent own := by
  obtain ⟨workflow, stage', around, known, declared, here, inner, marked⟩ :=
    so.standing there (by simp) (by simp)
  obtain ⟨rfl, rfl⟩ := inner.shape
  have traced := inner.traced
  rw [here, marked] at traced
  exact ⟨workflow, known, ⟨branches, there⟩, ⟨around, declared, rfl⟩, here, inner.hasSteps,
    inner.sound, traced⟩

/-- What a turn notes of own steps it notes at the stage whose steps have their turn. -/
theorem Run.own_news (so : Run engine pipeline properties state past e)
    (mem : r ∈ e.news engine w path) (isOwn : r.event.isOwn = true) :
    ∃ stage agent own events, Works engine pipeline properties past e r.place stage agent own ∧
      r.place.path.tail = path ∧
      own.Tells (e.contextAt engine r.place.path) stage agent events ∧ r.event ∈ events := by
  obtain ⟨i, stage, agent, branches, own, there⟩ := working_of_news mem isOwn
  obtain ⟨workflow, works⟩ := so.works there
  cases left : (own.move (e.contextAt engine (i :: path)) stage agent w).left? with
  | none => simp [news, left?_of_working there, left] at mem
  | some w' =>
    obtain ⟨events, notes, tells⟩ := OwnSteps.tells_of_move left
    obtain ⟨placed, marked⟩ := news_of_working there left notes
    have at_ : r.place = ⟨workflow, i :: path⟩ := (placed r mem).trans works.here
    have told : r.event ∈ events := by
      rw [← marked]
      simp only [marks, List.mem_filter, List.mem_map]
      exact ⟨⟨r, mem, rfl⟩, by simp [notable_of_isOwn isOwn]⟩
    rw [at_]
    exact ⟨stage, agent, own, events, works, rfl, tells, told⟩

/-! ### Placement -/

/-- What has been noted of a container is noted where a container is warranted. -/
theorem Run.warranted_of_records (so : Run engine pipeline properties state past e)
    (mem : r ∈ records past) (of_container : r.event.isOfContainer = true) :
    pipeline.Warrants r.place.path r.event := by
  have isOwn := isOwn_of_container of_container
  rcases so.located mem (notable_of_isOwn isOwn) with
    ⟨state, entered⟩ | ⟨workflow, i, way, stage, around, known, here, declared⟩
  · rw [entered] at of_container
    cases of_container
  have mark : r.event ∈ marksAt ⟨workflow, i :: way⟩ (records past) :=
    here ▸ mem_marksAt mem (notable_of_isOwn isOwn)
  rw [here]
  refine Pipeline.warrants declared ?_ ?_ of_container mark
  · intro bare
    obtain ⟨c, run, inner, -, place, -⟩ := so.descend known declared
    have receipts := inner.receipts_of_no_steps bare
    rw [place, ← so.marksAt_pastAt known] at receipts
    obtain ⟨j, failed, received⟩ := receipts _ mark
    rw [received] at of_container
    cases of_container
  · obtain ⟨c, run, -, traced⟩ := so.traced known declared
    exact traced.befit

/-- So is what the next turn notes of a container, even if it breaks down. -/
theorem Run.warranted_of_news (so : Run engine pipeline properties state past e)
    (mem : r ∈ e.news engine w path) (of_container : r.event.isOfContainer = true) :
    pipeline.Warrants r.place.path r.event := by
  obtain ⟨stage, agent, own, events, works, -, tells, told⟩ :=
    so.own_news mem (isOwn_of_container of_container)
  obtain ⟨around, declared, rfl⟩ := works.declared
  obtain ⟨receipts, noted, -, -, custody⟩ := works.custody
  rw [← works.here] at custody
  have befit := tells.befit works.sound custody
  exact Pipeline.warrants declared works.some_steps befit of_container told

/-- An error that a container lets a stage down with names the image of its nearest agent, which has
been fetched for it. -/
theorem Run.image_of_failure {m : StageRun.Moment} {output : StageOutput} {image message : String}
    (so : Run engine pipeline properties state past e)
    (known : properties.workflowId = .ok workflow) (mem : m ∈ pastAt past path)
    (worked : m.before = .working stage agent branches own)
    (settled : m.after = .settled output (some (.container image message))) :
    ∃ declared, pipeline.Nearest path (.docker declared) ∧ image = Image.normalize declared ∧
      .pull image ∈ marksAt ⟨workflow, path⟩ (records past) := by
  obtain ⟨-, stage', around, -, declared⟩ := so.declared_of_past mem
  obtain ⟨c, run, inner, -, place, -⟩ := so.descend known declared
  obtain ⟨docker, pull⟩ := inner.image_of_failure mem worked settled
  obtain ⟨named, nearest, rfl⟩ := Pipeline.nearest_docker declared docker
  refine ⟨named, nearest, rfl, ?_⟩
  cases path with
  | nil => cases declared
  | cons i way =>
    rw [so.marksAt_pastAt known]
    rwa [place, Image.normalize_normalize] at pull

/-- An image is fetched in a turn exactly if the turn goes to a stage whose own steps it begins, no
branch around has been cancelled, and the nearest agent is a docker agent. -/
theorem Run.pulls_iff (so : Run engine pipeline properties state past e) (w : World)
    (path : List Nat) (place : Place) :
    (∃ r ∈ e.news engine w path, r.place = place ∧ ∃ image, r.event = .pull image) ↔
      ∃ stage around declared, pipeline.stageAt? place.path = some (stage, around) ∧
        e.ReachesSteps path place ∧ stage.steps ≠ [] ∧ ¬place.Cancelled (records past) ∧
        pipeline.Nearest place.path (.docker declared) := by
  have same : e.properties = properties := so.fits.2.1
  constructor
  · rintro ⟨r, mem, rfl, image, pull⟩
    obtain ⟨stage, agent, own, events, works, here, tells, told⟩ :=
      so.own_news mem (by rw [pull]; rfl)
    rw [pull] at told
    obtain ⟨rfl, free, image', docker⟩ := tells.entering_of_pull told
    obtain ⟨branches, there⟩ := works.there
    obtain ⟨around, declared, rfl⟩ := works.declared
    obtain ⟨named, nearest, -⟩ := Pipeline.nearest_docker declared docker
    refine ⟨stage, around, named, declared, ⟨?_, here, _, there, rfl⟩, works.some_steps, ?_,
      nearest⟩
    · rw [same]
      exact works.known
    · intro cancelled
      rw [← so.cancelled_iff works.known there, free] at cancelled
      cases cancelled
  · rintro ⟨stage, around, named, declared, ⟨known, here, run, there, at_steps⟩, some_steps, free,
      nearest⟩
    rw [same] at known
    obtain ⟨workflow, at_⟩ := place
    dsimp only at there here nearest known declared
    subst here
    cases at_ with
    | nil => cases there
    | cons i path =>
      obtain ⟨branches, rfl⟩ := so.entering_of_reached known declared there at_steps some_steps
      obtain ⟨workflow', works⟩ := so.works there
      obtain rfl : workflow = workflow' := by simpa using known.symm.trans works.known
      have agent : stage.effectiveAgent around = .docker named :=
        (Pipeline.nearest_effectiveAgent declared).unique nearest
      have docker : (stage.effectiveAgent around).image? = some (Image.normalize named) := by
        rw [agent, Agent.image?]
      rw [← so.cancelled_iff known there, Bool.not_eq_true] at free
      obtain ⟨w', more, left, notes⟩ := OwnSteps.pull_of_entering docker free w
      obtain ⟨r, mem, here, event⟩ := exists_news there left notes works.here
      exact ⟨r, mem, here, _, event⟩

/-- A container is started in a turn exactly if the turn goes to a stage whose image has come and
which has started none. -/
theorem Run.starts_iff (so : Run engine pipeline properties state past e) (w : World)
    (path : List Nat) (place : Place) :
    (∃ r ∈ e.news engine w path, r.place = place ∧ ∃ image, r.event = .start image) ↔
      place.path.tail = path ∧ (∃ image, .pulled image ∈ marksAt place (records past)) ∧
        ∀ image, .start image ∉ marksAt place (records past) := by
  constructor
  · rintro ⟨r, mem, rfl, image, start⟩
    obtain ⟨stage, agent, own, events, works, here, tells, told⟩ :=
      so.own_news mem (by rw [start]; rfl)
    rw [start] at told
    obtain ⟨image, rfl⟩ := tells.pulled_of_start told
    obtain ⟨receipts, noted, marked, received, custody⟩ := works.custody
    cases custody with
    | pulled docker =>
      rw [marked]
      refine ⟨here, ⟨Image.normalize image, by simp⟩, fun image => ?_⟩
      simpa using received.absent (by simp)
  · rintro ⟨here, ⟨image, came⟩, unstarted⟩
    obtain ⟨first, mem, placed, pulled, notable⟩ := exists_of_mem_marksAt came
    rcases so.located mem (pulled ▸ notable) with
      ⟨state, entered⟩ | ⟨workflow, i, way, stage, around, known, at_, declared⟩
    · cases pulled.symm.trans entered
    obtain rfl : place = ⟨workflow, i :: way⟩ := placed.symm.trans at_
    obtain rfl : way = path := here
    obtain ⟨c, run, stands, traced⟩ := so.traced known declared
    obtain ⟨worker, agent, branches, image, rfl⟩ := traced.pulled came unstarted
    cases stands with
    | there there =>
      obtain ⟨workflow', works⟩ := so.works there
      obtain rfl : workflow = workflow' := by simpa using known.symm.trans works.known
      obtain ⟨w', more, left, notes⟩ := OwnSteps.start_of_pulled w
      obtain ⟨r, mem, here, event⟩ := exists_news there left notes works.here
      exact ⟨r, mem, here, _, event⟩

/-- Containers are placed by the nearest agents. A turn fetches an image exactly where it begins the
own steps of a stage that has some, below no cancelled branch and with a docker agent nearest to it,
and a container is started from each image that has come. Whatever is noted of containers, at the
latest in a turn that breaks down, is of such stages and of the images of their agents, and so are
the errors that containers let stages down with. Where a host agent has been declared and no docker
agent behind it, there are no containers. -/
theorem Run.containers_follow_nearest_agents (so : Run engine pipeline properties state past e) :
    (∀ w path place,
      (∃ r ∈ e.news engine w path, r.place = place ∧ ∃ image, r.event = .pull image) ↔
        ∃ stage around declared, pipeline.stageAt? place.path = some (stage, around) ∧
          e.ReachesSteps path place ∧ stage.steps ≠ [] ∧ ¬place.Cancelled (records past) ∧
          pipeline.Nearest place.path (.docker declared)) ∧
    (∀ w path place,
      (∃ r ∈ e.news engine w path, r.place = place ∧ ∃ image, r.event = .start image) ↔
        place.path.tail = path ∧ (∃ image, .pulled image ∈ marksAt place (records past)) ∧
          ∀ image, .start image ∉ marksAt place (records past)) ∧
    (∀ w path, ∀ r ∈ records past ++ e.news engine w path, r.event.isOfContainer = true →
      pipeline.Warrants r.place.path r.event) ∧
    (∀ workflow path m stage agent branches own output image message,
      properties.workflowId = .ok workflow → m ∈ pastAt past path →
      m.before = .working stage agent branches own →
      m.after = .settled output (some (.container image message)) →
        ∃ declared, pipeline.Nearest path (.docker declared) ∧ image = Image.normalize declared ∧
          .pull image ∈ marksAt ⟨workflow, path⟩ (records past)) ∧
    ∀ above below, pipeline.declaredAt? above = some .none →
      (∀ way, way <+: below → ∀ image, pipeline.declaredAt? (above ++ way) ≠ some (.docker image)) →
      ∀ w path, ∀ r ∈ records past ++ e.news engine w path, r.place.path = above ++ below →
        r.event.isOfContainer = false := by
  have warranted (w : World) (path : List Nat) (r : Record)
      (mem : r ∈ records past ++ e.news engine w path)
      (of_container : r.event.isOfContainer = true) :
      pipeline.Warrants r.place.path r.event := by
    rcases List.mem_append.mp mem with earlier | now
    · exact so.warranted_of_records earlier of_container
    · exact so.warranted_of_news now of_container
  refine ⟨so.pulls_iff, so.starts_iff, warranted, ?_, ?_⟩
  · intro workflow path m stage agent branches own output image message known mem worked settled
    exact so.image_of_failure known mem worked settled
  · intro above below host bare w path r mem at_
    by_contra contained
    obtain ⟨stage, around, image, -, -, nearest, -⟩ :=
      warranted w path r mem (by simpa using contained)
    obtain ⟨way, way_prefix, declared⟩ := (at_ ▸ nearest).at_or_below host
    exact bare way way_prefix image declared

theorem Duo.left_fetches_its_image :
    let (past, w, e) := play Duo.engine (Duo.turns.take 4) Duo.world
      { pipeline := Duo.pipeline, properties := Duo.properties }
    Run Duo.engine Duo.pipeline Duo.properties ⟨.pending, 0⟩ past e ∧
      ∃ r ∈ e.news Duo.engine w [0], r.place = ⟨"duo", [0, 0]⟩ ∧ r.event = .pull "left:latest" := by
  let played := play Duo.engine (Duo.turns.take 4) Duo.world
    { pipeline := Duo.pipeline, properties := Duo.properties }
  have so : Run Duo.engine Duo.pipeline Duo.properties ⟨.pending, 0⟩ played.1 played.2.2 :=
    Run.begins.play (Duo.turns.take 4) Duo.world
  obtain ⟨pulls, -, warranted, -⟩ := so.containers_follow_nearest_agents
  have nearest : Duo.pipeline.Nearest [0, 0] (.docker "left") := .here rfl
  have unheard : (records played.1).any (fun r => r.event matches .received ..) = false := by
    decide +kernel
  have free : ¬Place.Cancelled ⟨"duo", [0, 0]⟩ (records played.1) := by
    rintro ⟨above, i, below, j, -, received⟩
    obtain ⟨r, mem, -, event, -⟩ := exists_of_mem_marksAt received
    have heard := List.any_eq_false.mp unheard r mem
    simp [event] at heard
  obtain ⟨r, mem, place, image, pull⟩ := (pulls played.2.1 [0] ⟨"duo", [0, 0]⟩).mpr
    ⟨_, _, "left", rfl, ⟨rfl, rfl, _, rfl, rfl⟩, by simp, free, nearest⟩
  obtain ⟨-, -, declared, -, -, nearest', named⟩ :=
    warranted played.2.1 [0] r (List.mem_append_right _ mem) (by rw [pull]; rfl)
  rw [place] at nearest'
  obtain rfl : declared = "left" := by simpa using nearest'.unique nearest
  refine ⟨so, r, mem, place, ?_⟩
  rw [pull, named image (by rw [pull]; rfl)]
  rfl

end Execution
end PipelineRunner
