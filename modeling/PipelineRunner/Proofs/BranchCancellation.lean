import PipelineRunner.Proofs.AttemptTimes
import PipelineRunner.Proofs.ContainerScope
import PipelineRunner.Proofs.DocumentOrder

/-! What the first failure of a branch does to the branches beside it. Once their join has received
it nothing new begins in any of them, however deep: no plugin is called and no image is fetched. A
call that is in flight by then runs on where the stage around does not interrupt its branches, and
what its attempt comes to for good is what its step leaves in the report. -/

namespace PipelineRunner

/-- Whether something new begins with an event: a call of a plugin, or the fetching of an image. -/
def Event.begins : Event → Bool
  | .called .. => true
  | .pull _ => true
  | _ => false

theorem isOwn_of_begins {event : Event} (h : event.begins = true) : event.isOwn = true := by
  cases event <;> first | rfl | cases h

/-! ### Nothing begins under a cancelled token -/

namespace Trial

variable {c : Context} {t t' : Trial} {events : List Event} {event : Event} {attempt : Nat}
  {result : StepResult}

theorem Asks.free (h : t.Asks c attempt events) (mem : event ∈ events) : c.cancelled = false := by
  cases h with
  | now ready free => exact free
  | before => cases mem

theorem Goes.free (h : t.Goes c events t') (mem : event ∈ events) (new : event.begins = true) :
    c.cancelled = false := by
  cases h with
  | waits asks => exact asks.free mem
  | pauses asks =>
    rcases List.mem_append.mp mem with earlier | now
    · exact asks.free earlier
    · simp [List.mem_singleton.mp now, Event.begins] at new
  | expires => simp [List.mem_singleton.mp mem, Event.begins] at new
  | resumes pausing free => exact free

theorem Ends.free (h : t.Ends c events result) (mem : event ∈ events)
    (new : event.begins = true) : c.cancelled = false := by
  cases h with
  | cancelled => cases mem
  | refused ready free => exact free
  | interrupted | timedOut => simp [List.mem_singleton.mp mem, Event.begins] at new
  | succeeds asks | fails asks =>
    rcases List.mem_append.mp mem with earlier | now
    · exact asks.free earlier
    · simp [List.mem_singleton.mp now, Event.begins] at new

end Trial

namespace OwnSteps

variable {c : Context} {stage : Stage} {agent : Agent} {own own' : OwnSteps} {events : List Event}
  {event : Event} {image id : String} {result : StepsResult}

theorem Fetches.free (h : Fetches c agent own image events) (mem : event ∈ events) :
    c.cancelled = false := by
  cases h with
  | now docker free => exact free
  | before => cases mem

theorem Starts.begins_nothing (h : Starts own image events) (mem : event ∈ events) :
    event.begins = false := by
  cases h with
  | now => simp [List.mem_singleton.mp mem, Event.begins]
  | before => cases mem

theorem Stops.begins_nothing (h : Stops own id result events) (mem : event ∈ events) :
    event.begins = false := by
  cases h with
  | now => simp [List.mem_singleton.mp mem, Event.begins]
  | before => cases mem

/-- A call or the fetching of an image begins only while the token is not cancelled. -/
theorem Goes.free (h : own.Goes c stage agent events own') (mem : event ∈ events)
    (new : event.begins = true) : c.cancelled = false := by
  cases h with
  | host | through | cancelled | unresolved | resolved => cases mem
  | pulling fetches => exact fetches.free mem
  | pulled fetches =>
    rcases List.mem_append.mp mem with earlier | now
    · exact fetches.free earlier
    · simp [List.mem_singleton.mp now, Event.begins] at new
  | starting starts => simp [starts.begins_nothing mem] at new
  | started starts =>
    rcases List.mem_append.mp mem with earlier | now
    · simp [starts.begins_nothing earlier] at new
    · simp [List.mem_singleton.mp now, Event.begins] at new
  | tries goes => exact goes.free mem new
  | succeeds ends | fails ends => exact ends.free mem new
  | stopping stops => simp [stops.begins_nothing mem] at new

theorem Ends.free (h : own.Ends c agent events result) (mem : event ∈ events)
    (new : event.begins = true) : c.cancelled = false := by
  cases h with
  | cancelled | host => cases mem
  | unpulled fetches => exact fetches.free mem
  | unstarted starts => simp [starts.begins_nothing mem] at new
  | stopped stops =>
    rcases List.mem_append.mp mem with earlier | now
    · simp [stops.begins_nothing earlier] at new
    · simp [List.mem_singleton.mp now, Event.begins] at new

end OwnSteps

namespace StageRun

variable {stage : Stage} {inherited agent : Agent} {c : Context} {past : List Moment}
  {run run' deep : StageRun} {w w' : World} {path way : List Nat} {news : List Record} {r : Record}
  {noted : List Event} {i : Nat}

theorem free_of_begins (moved : run.move c w path = .moved w' run')
    (noted : w'.history = news.reverse ++ w.history) (mem : r ∈ news) (here : r.place = c.place)
    (new : r.event.begins = true) : c.cancelled = false := by
  have own := isOwn_of_begins new
  obtain ⟨s, a, branches, own', rfl⟩ := working_of_own moved noted mem here own
  have notable := notable_of_isOwn own
  cases turned_of_move moved with
  | works notes goes => exact goes.free (notes.mem noted mem notable) new
  | settles notes ends => exact ends.free (notes.mem noted mem notable) new

/-- A join that has received a branch with a failure has a failure itself. -/
def Heeds (noted : List Event) : StageRun → Prop
  | joining _ _ _ failure => ∀ i, .received i true ∈ noted → failure.isSome = true
  | _ => True

theorem heeds_ownSteps (branches : Option StageResults) :
    Heeds noted (ownSteps stage agent branches) :=
  ownSteps_cases branches (fun _ => trivial) trivial

theorem Run.heeds (so : Run stage inherited c past run) :
    run.Heeds (marksAt c.place (records past)) := by
  induction so with
  | begins c => trivial
  | cancelled so ih => exact ih
  | @turn c past run run' path w w' news so moved noted ih =>
    have traced := so.traced
    cases turned_of_move moved with
    | enters =>
      have silent : w.Notes c.place [] w := .nothing rfl
      have idle : marksAt c.place (records past) = [] := traced
      rw [marksAt_concat silent noted, idle]
      exact enter_cases (fun _ => heeds_ownSteps _) (by simp [Heeds])
    | leaves all => exact leaveJoin_cases _ _ (fun _ _ _ => trivial) fun _ _ => heeds_ownSteps _
    | works | settles => trivial
    | @receives _ _ _ failure j _ _ outcome there =>
      have notes : w.Notes c.place [.received j outcome.isSome]
          (w.note c.place (.received j outcome.isSome)) := World.notes_note rfl
      rw [marksAt_concat notes noted]
      intro i mem
      rcases List.mem_append.mp mem with earlier | now
      · simp [ih i earlier]
      · simp only [List.mem_singleton, Event.received.injEq] at now
        simp [← now.2]
    | inside there unsettled inner =>
      rw [records_concat, marksAt_append, marksAt_inside inner noted, List.append_nil]
      exact ih

/-- A stage that is through has no call in flight. -/
theorem Traced.idle {workflow : String} {output : StageOutput} {outcome : Option StepError}
    (traced : (settled output outcome).Traced stage agent workflow noted) :
    inFlight noted = false := by
  obtain ⟨receipts, events, rfl, received, closed⟩ := traced
  have idle := received.idle
  rw [inFlight] at idle
  cases closed with
  | untouched | unpulled | unstarted => simp [inFlight, idle, Event.flight]
  | host bare called => simpa using ((received.ready (.host bare)).goesOn called).2.1
  | stopped open_ called =>
    have quiet := ((received.ready open_).goesOn called).2.1
    rw [inFlight] at quiet
    simp [inFlight, ← List.append_assoc, List.foldl_append, Event.flight] at quiet ⊢
    exact quiet

end StageRun

theorem Stage.at?_concat (stage : Stage) (inherited : Agent) (path : List Nat) (i : Nat) :
    stage.at? inherited (path ++ [i]) = (stage.at? inherited path).bind fun (deep, around) =>
      deep.parallel[i]?.map fun branch => (branch, deep.effectiveAgent around) := by
  induction path generalizing stage inherited with
  | nil =>
    simp only [List.nil_append, at?, Option.bind_some]
    cases stage.parallel[i]? <;> rfl
  | cons j path ih =>
    simp only [List.cons_append, at?]
    cases stage.parallel[j]? with
    | none => rfl
    | some branch => exact ih _ _

/-- Whether a branch is interrupted when it is cancelled: the stage right around it fails fast. -/
def Pipeline.interrupts (p : Pipeline) (path : List Nat) : Bool :=
  match p.stageAt? path.dropLast with
  | some (stage, _) => stage.isFailFast
  | none => false

namespace Execution

open StageRun (SettledAs)

variable {engine : Engine} {pipeline : Pipeline} {properties : Properties} {state : StateCell}
  {past before after : List Moment} {e e' : Execution} {path way : List Nat} {w w' : World}
  {workflow : String} {i j : Nat} {m : Moment} {r s : Record} {news : List Record}
  {deep : StageRun} {stage : Stage} {agent : Agent}

/-- Around what is under way below a stage there is the join of that stage, which hands its branch
what it finds around it. -/
theorem joining_of_stageAt?_append (inside : path ≠ [])
    (there : e.stageAt? (path ++ i :: way) = some deep) :
    ∃ stage agent runs failure inner,
      e.stageAt? path = some (.joining stage agent runs failure) ∧ runs[i]? = some inner ∧
      e.contextAt engine (path ++ i :: way) =
        StageRun.contextAt (StageRun.Context.inside (e.contextAt engine path) stage failure i)
          inner way := by
  cases path with
  | nil => exact absurd rfl inside
  | cons j path =>
    obtain ⟨workflow, name, whole, todo, results, phase, below⟩ := stageAt?_eq_some there
    obtain ⟨stage, agent, runs, failure, inner, join, found, -⟩ :=
      StageRun.joining_of_at?_append below
    refine ⟨stage, agent, runs, failure, inner, ?_, found, ?_⟩
    · rw [stageAt?_inStage path phase, join]
    · simp only [contextAt, phase, List.cons_append, List.tail_cons]
      rw [StageRun.contextAt_append join, StageRun.contextAt_cons found]

theorem records_split {before after : List Record}
    (h : records past = before ++ s :: after) :
    ∃ earlier m later, past = earlier ++ m :: later ∧ ∃ first last, m.news = first ++ s :: last ∧
      before = records earlier ++ first := by
  induction past generalizing before with
  | nil => simp at h
  | cons m past ih =>
    have news : m.news ++ records past = before ++ s :: after := h
    rcases split_append news with ⟨rest, here, -⟩ | ⟨between, rfl, there⟩
    · exact ⟨[], m, past, rfl, before, rest, here, rfl⟩
    · obtain ⟨earlier, m', later, rfl, first, last, here, rfl⟩ := ih there
      exact ⟨m :: earlier, m', later, rfl, first, last, here, by simp [records]⟩

/-- Behind the receipt of a failing branch all that is under way below the join is cancelled. -/
theorem Run.cancelled_below (so : Run engine pipeline properties state past e)
    (hr : r ∈ records past) (failed : r.event = .received i true)
    (there : e.stageAt? (r.place.path ++ j :: way) = some deep) :
    (e.contextAt engine (r.place.path ++ j :: way)).cancelled = true := by
  have notable : r.event.isAside = false := by simp [failed, Event.isAside]
  rcases so.located hr notable with
    ⟨state, entered⟩ | ⟨workflow, k, path, stage, around, known, at_, declared⟩
  · cases failed.symm.trans entered
  have inside : r.place.path ≠ [] := by simp [at_]
  obtain ⟨join, agent, runs, failure, inner, joining, found, context⟩ :=
    joining_of_stageAt?_append inside there
  obtain ⟨c, whole, deep, -, here, stands⟩ := so.descend known declared
  rw [at_] at joining
  obtain ⟨rfl, -⟩ := stands.of_there joining (by simp) (by simp)
  have heeds := deep.heeds
  rw [here, ← so.marksAt_pastAt known, ← at_] at heeds
  have some : failure.isSome = true := heeds i (failed ▸ mem_marksAt hr notable)
  rw [context]
  exact StageRun.contextAt_cancelled (by simp [StageRun.Context.inside, some]) _ _

theorem Run.begins_nothing (so : Run engine pipeline properties state past e)
    (split : past = before ++ m :: after) (mem : s ∈ m.news) (hr : r ∈ records before)
    (failed : r.event = .received i true) (below : s.place = r.place.below (j :: way)) :
    s.event.begins = false := by
  by_contra begun
  rw [Bool.not_eq_false] at begun
  obtain ⟨-, -, w, w', run, run', way', -, -, there, -, place, moved, noted, -⟩ :=
    so.turn_of_record split mem (isOfStage_of_isOwn (isOwn_of_begins begun))
  obtain ⟨w₀, w₀', earlier, -⟩ := so.split split
  have deeper : s.place.path = r.place.path ++ j :: way := by rw [below, Place.below]
  have free := StageRun.free_of_begins moved noted mem (by rw [place]) begun
  rw [deeper] at there free
  rw [earlier.cancelled_below hr failed there] at free
  cases free

/-- What is noted below a join behind a receipt is noted in a later turn. -/
theorem Run.turn_behind {before after : List Record}
    (so : Run engine pipeline properties state past e)
    (split : records past = before ++ r :: after) (mem : s ∈ after)
    (own : s.event.isOfStage = true) (below : s.place = r.place.below (j :: way)) :
    ∃ earlier m later, past = earlier ++ m :: later ∧ s ∈ m.news ∧ r ∈ records earlier := by
  obtain ⟨between, rest, rfl⟩ := List.append_of_mem mem
  have split' : records past = (before ++ r :: between) ++ s :: rest := by simpa using split
  obtain ⟨earlier, m, later, rfl, first, last, news, so_far⟩ := records_split split'
  have mem_news : s ∈ m.news := by simp [news]
  refine ⟨earlier, m, later, rfl, mem_news, ?_⟩
  have hr : r ∈ records earlier ++ first := by simp [← so_far]
  refine (List.mem_append.mp hr).resolve_right fun now => ?_
  -- What a turn notes, it notes at one place.
  obtain ⟨w, w', -, moved, noted⟩ := so.split rfl
  have together : r ∈ m.news := by simp [news, now]
  have here := one_place moved noted mem_news together own
  exact Place.below_cons_ne _ _ _ (below.symm.trans here)

theorem stageAt?_concat (inside : path ≠ [])
    (h : pipeline.stageAt? (path ++ [i]) = some (stage, agent)) :
    ∃ parent around, pipeline.stageAt? path = some (parent, around) ∧
      parent.parallel[i]? = some stage ∧ parent.effectiveAgent around = agent := by
  cases path with
  | nil => exact absurd rfl inside
  | cons j path =>
    simp only [Pipeline.stageAt?, List.cons_append] at h ⊢
    cases hs : pipeline.stages[j]? with
    | none => simp [hs] at h
    | some top =>
      simp only [hs, Stage.at?_concat, Option.bind_eq_some_iff, Option.map_eq_some_iff] at h ⊢
      obtain ⟨⟨parent, around⟩, there, branch, found, same⟩ := h
      obtain ⟨rfl, rfl⟩ := Prod.mk.inj same
      exact ⟨parent, around, there, found, rfl⟩

/-- What is around the run of a stage, as the stage right around it is declared. -/
theorem Run.descend_branch (so : Run engine pipeline properties state past e)
    (known : properties.workflowId = .ok workflow)
    (there : pipeline.stageAt? path = some (stage, agent)) :
    ∃ c run, StageRun.Run stage agent c (pastAt past path) run ∧ c.engine = engine ∧
      c.place = ⟨workflow, path⟩ ∧ c.interrupt = pipeline.interrupts path := by
  rcases List.eq_nil_or_concat path with rfl | ⟨init, i, rfl⟩
  · cases there
  rw [List.concat_eq_append] at there ⊢
  by_cases top : init = []
  · subst top
    cases hs : pipeline.stages[i]? with
    | none => simp [Pipeline.stageAt?, hs] at there
    | some first =>
      obtain ⟨rfl, rfl⟩ : first = stage ∧ pipeline.agent = agent := by
        simpa [Pipeline.stageAt?, hs, Stage.at?] using there
      obtain ⟨run, inner, -⟩ := so.stage known hs
      exact ⟨_, run, inner, rfl, rfl, rfl⟩
  · obtain ⟨parent, around, above, branch, rfl⟩ := stageAt?_concat top there
    obtain ⟨c, run, inner, engine, place, -⟩ := so.descend known above
    obtain ⟨failure, run', deeper, -⟩ := inner.branch branch
    refine ⟨StageRun.Context.inside c parent failure i, run', ?_, engine, ?_, ?_⟩
    · rw [pastAt_concat _ top]
      exact deeper
    · simp [StageRun.Context.inside, place, Place.branch]
    · simp [StageRun.Context.inside, Pipeline.interrupts, above]

/-- From the moment a join has received a failing branch nothing begins in any branch, or in any
stage below one: no call and no fetching of an image. Where the stage right around a branch does not
fail fast, nobody stops waiting for a call of the branch before its time is up, no call is in flight
when the branch is through, and what an attempt has come to for good is what its step has left. -/
theorem nothing_begins_behind_failure (so : Run engine pipeline properties state past e) :
    (∀ before r after i, records past = before ++ r :: after → r.event = .received i true →
      ∀ s ∈ after, ∀ j way, s.place = r.place.below (j :: way) → s.event.begins = false) ∧
    ∀ workflow path stage around, properties.workflowId = .ok workflow →
      pipeline.stageAt? path = some (stage, around) → pipeline.interrupts path = false →
      Patient engine.policy.attemptLimit (recordsAt ⟨workflow, path⟩ (records past)) ∧
      ∀ output outcome, SettledAs (pastAt past path) output outcome →
        inFlight (marksAt ⟨workflow, path⟩ (records past)) = false ∧
        ∀ before event after result,
          marksAt ⟨workflow, path⟩ (records past) = before ++ event :: after →
          Concludes engine.policy stage before event result →
          ∃ outputs, output.steps? = some outputs ∧
            StepsResult.Shows ⟨outputs, outcome⟩ (delivered before).length result := by
  refine ⟨fun before r after i split failed s mem j way below => ?_, ?_⟩
  · by_contra begun
    rw [Bool.not_eq_false] at begun
    obtain ⟨earlier, m, later, past, mem_news, hr⟩ :=
      so.turn_behind split mem (isOfStage_of_isOwn (isOwn_of_begins begun)) below
    simp [so.begins_nothing past mem_news hr failed below] at begun
  · intro workflow path stage around known declared calm
    obtain ⟨c, run, inner, rfl, place, interrupt⟩ := so.descend_branch known declared
    rw [calm] at interrupt
    have inside := stageAt?_nonempty declared
    obtain ⟨i, way, rfl⟩ := List.exists_cons_of_ne_nil inside
    have patient := (inner.patient interrupt).2
    have concluded := (inner.concluded interrupt).2
    have traced := inner.traced
    rw [place, ← so.recordsAt_pastAt known] at patient
    rw [place, ← so.marksAt_pastAt known] at concluded traced
    refine ⟨patient, fun output outcome settled => ?_⟩
    obtain rfl := inner.settled_of_settledAs settled
    refine ⟨traced.idle, fun before event after result split concludes => ?_⟩
    have left := concluded before event after result split concludes
    have shown := left.text
    simp only [StageRun.shown] at left shown
    cases so_far : output.steps? with
    | none => simp [so_far] at shown
    | some outputs => exact ⟨outputs, rfl, by simpa [so_far] using left⟩

end Execution

/-! ### A call that runs on -/

namespace Execution.Duo

/-- What passes takes some time. -/
def slowPlugin : Plugin where
  methods := plugin.methods
  invoke method _ :=
    if method = "fail" then .done (.error (.because "broken"))
    else .sleep 5 fun _ => .done (.ok (some "through"))

def slowWorld : World := { registry := (Registry.empty.register "duo" slowPlugin).1 }

/-- The right branch fails while the call of the left one is in flight. -/
def turnsAhead : List (List Nat) :=
  [[], [], [], [0], [0], [0], [0], [0], [1], [1], [1], [1], [1], [1], [1]]

/-- The call answers in its time. -/
def turnsBehind : List (List Nat) := [[0], [0], [0], [0], [], []]

def ahead : List Moment × World × Execution :=
  play engine turnsAhead slowWorld { pipeline, properties }

def behind : List Moment × World × Execution :=
  play engine turnsBehind { ahead.2.1 with clock := 5 } ahead.2.2

theorem slow_run :
    Run engine pipeline properties ⟨.pending, 0⟩ (ahead.1 ++ behind.1) behind.2.2 := by
  have begun : Run engine pipeline properties ⟨.pending, 0⟩ ahead.1 ahead.2.2 :=
    Run.begins.play turnsAhead slowWorld
  exact begun.play turnsBehind _

/-- What was noted of the left branch. -/
def leftMarks : List Event := marksAt ⟨"duo", [0, 0]⟩ (records (ahead.1 ++ behind.1))

theorem left_runs_on : ∃ before r after, records (ahead.1 ++ behind.1) = before ++ r :: after ∧
    r.event = .received 1 true ∧
    (∀ s ∈ after, ∀ way, s.place = r.place.below (0 :: way) → s.event.begins = false) ∧
    ∃ output outputs, StageRun.SettledAs (pastAt (ahead.1 ++ behind.1) [0, 0]) output none ∧
      output.steps? = some outputs ∧ outputs[0]? = some "through" := by
  obtain ⟨quiet, runs_on⟩ := nothing_begins_behind_failure slow_run
  have split : records (ahead.1 ++ behind.1) = (records (ahead.1 ++ behind.1)).take 18 ++
      ⟨0, ⟨"duo", [0]⟩, .received 1 true⟩ :: (records (ahead.1 ++ behind.1)).drop 19 := rfl
  have settled : StageRun.SettledAs (pastAt (ahead.1 ++ behind.1) [0, 0]) (.steps ["through"])
      none :=
    ⟨_, List.mem_of_getElem? (show (pastAt (ahead.1 ++ behind.1) [0, 0])[7]? = some _ from rfl), rfl⟩
  have answered : leftMarks =
      leftMarks.take 5 ++ .answered (.ok (some "through")) :: leftMarks.drop 6 := rfl
  obtain ⟨-, left⟩ := (runs_on "duo" [0, 0] _ _ rfl rfl rfl).2 _ none settled
  obtain ⟨outputs, steps, shown⟩ := left _ _ _ _ answered (.delivers _)
  exact ⟨_, _, _, split, rfl, fun s mem way below => quiet _ _ _ 1 split rfl s mem 0 way below, _,
    outputs, settled, steps, shown.text⟩

end Execution.Duo
end PipelineRunner
