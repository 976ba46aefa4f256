import PipelineRunner.Proofs.LauncherRuns

/-! The state of a workflow whose task has ended. It is done whatever the execution has come to, and
then it may be forgotten; only a task that has broken down leaves its workflow running for good. -/

namespace PipelineRunner

@[simp] theorem WorkflowState.max_done (s : WorkflowState) : s.max .done = .done := by
  cases s <;> rfl

namespace Execution

variable {engine : Engine} {pipeline : Pipeline} {properties : Properties} {past : List Moment}
  {e : Execution} {w w' : World} {path : List Nat} {reason : String} {held : List String}

/-- The state of an execution that is on its way. -/
def Phase.Enters : Phase → WorkflowState → Prop
  | .fresh, state => state = .pending
  | .between .., state => state = .running
  | .inStage .., state => state = .running
  | _, _ => True

theorem Run.enters (so : Run engine pipeline properties ⟨.pending, 0⟩ past e) :
    e.phase.Enters e.state.state := by
  induction so with
  | begins => rfl
  | called so rota ih => exact ih
  | turn so moved noted ih =>
    cases turned_of_move moved with
    | refused fresh missing => trivial
    | begins fresh known noted =>
      rw [fresh] at ih
      simp only [Phase.Enters] at ih ⊢
      simp [ih]
      rfl
    | finishes phase noted => trivial
    | starts phase noted =>
      rw [phase] at ih
      exact ih
    | succeeds phase =>
      rw [phase] at ih
      exact ih
    | fails phase noted => trivial
    | inside phase unsettled inner =>
      rw [phase] at ih
      exact ih

theorem inStage_of_crashed (h : e.move engine w path = .crashed w' reason held) :
    ∃ workflow index name run todo results,
      e.phase = .inStage workflow index name run todo results := by
  unfold move at h
  split at h
  next =>
    unfold begin at h
    split at h <;> cases h
  next => cases h
  next => cases h
  next failure _ _ phase =>
    cases failure <;> cases h
  next phase => exact ⟨_, _, _, _, _, _, phase⟩
  next => cases h
  next => cases h

end Execution

/-- The state of a workflow with a task that has ended tells whether the task has broken down. -/
theorem Task.Fits.ended {engine : Engine} {id : String} {e : Execution}
    (fits : (Task.workflow id .over e).Fits engine) :
    (∃ result, e.phase = .over result ∧ e.state.state = .done) ∨
      ∃ reason, e.phase = .crashed reason ∧ e.state.state = .running := by
  cases fits with
  | closed id so ended => exact .inl ⟨_, ended, by simp⟩
  | broken id so crashed =>
    obtain ⟨_, _, _, _, _, _, phase⟩ :=
      Execution.inStage_of_crashed (Execution.step_crashed crashed)
    have state := so.enters
    rw [phase] at state
    exact .inr ⟨_, rfl, state⟩

namespace Launcher

/-- Whether the task of a workflow has ended. -/
def hasEnded (l : Launcher) (w : Workflow) : Bool :=
  match l.tasks[w.task]? with
  | some (.workflow _ .over _) => true
  | _ => false

/-- Whether a task has broken down. -/
def isAborted : Except LaunchError Report → Bool
  | .error (.aborted ..) => true
  | _ => false

/-- The workflow is done, and may be forgotten. -/
def IsDone (l : Launcher) (id : String) : Prop := l.query id = .done ∧ (l.remove id).2 = true

/-- The workflow is running, and cannot be forgotten. -/
def Lingers (l : Launcher) (id : String) : Prop :=
  l.query id = .running ∧ l.remove id = (l, false)

/-- What is told of a workflow whose task has come to a result. -/
def Tells (l : Launcher) (id : String) (result : Except LaunchError Report) : Prop :=
  if isAborted result then l.Lingers id else l.IsDone id

variable {l l' : Launcher} {id : String} {w w' : Workflow} {e : Execution}
  {result : Except LaunchError Report}

theorem find?_id (found : l.find? id = some w) : w.id = id := by
  simpa using List.find?_some found

theorem hasEnded_iff (sound : Sound l) (found : l.find? id = some w) :
    l.hasEnded w = true ↔ ∃ e, l.tasks[w.task]? = some (.workflow id .over e) := by
  obtain rfl := find?_id found
  obtain ⟨admission, e, there⟩ := sound.known w (List.mem_of_find?_eq_some found)
  cases admission <;> simp [hasEnded, there]

theorem query_eq (found : l.find? id = some w) {admission : Admission}
    (there : l.tasks[w.task]? = some (.workflow id admission e)) :
    l.query id = e.state.state := by
  simp [query, found, stateOf, execution?, there]

/-- A task that has ended has come to a result, and its workflow tells which. -/
theorem tells_of_over (sound : Sound l) (found : l.find? id = some w)
    (there : l.tasks[w.task]? = some (.workflow id .over e)) :
    ∃ result, l.outcome? w = some result ∧ l.Tells id result := by
  have queried := query_eq found there
  rcases (sound.fits _ _ there).ended with ⟨result, phase, state⟩ | ⟨reason, phase, state⟩
  · have done : l.query id = .done := queried.trans state
    have isDone : l.IsDone id := ⟨done, by simp [remove, done]⟩
    cases result with
    | ok report => exact ⟨.ok report, by simp [outcome?, there, phase], isDone⟩
    | error error => exact ⟨.error (.execution error), by simp [outcome?, there, phase], isDone⟩
  · have running : l.query id = .running := queried.trans state
    have lingers : l.Lingers id := ⟨running, by simp [remove, running]⟩
    exact ⟨.error (.aborted w.id _), by simp only [outcome?, there, phase]; rfl, lingers⟩

/-- What a task that has ended has come to stays so. -/
theorem Leads.ended (leads : Leads l l') (sound : Sound l) {n : Nat}
    (there : l.tasks[n]? = some (.workflow id .over e)) :
    l'.tasks[n]? = some (.workflow id .over e) := by
  obtain ⟨task, there', becomes⟩ := (leads.evolves sound).tasks _ _ there
  rw [there', becomes.of_over]

theorem Leads.lingers (leads : Leads l l') (sound : Sound l) (found : l.find? id = some w)
    (there : l.tasks[w.task]? = some (.workflow id .over e)) (lingers : l.Lingers id) :
    ∃ w', l'.find? id = some w' ∧ w'.task = w.task := by
  have state : e.state.state = .running := (query_eq found there).symm.trans lingers.1
  induction leads with
  | here => exact ⟨w, found, rfl⟩
  | next leads goes ih =>
    obtain ⟨w₁, found₁, same₁⟩ := ih
    have there₁ := leads.ended sound there
    rw [← same₁] at there₁
    rcases goes.find? found₁ with ⟨w₂, found₂, same₂⟩ | done
    · exact ⟨w₂, found₂, same₂.trans same₁⟩
    · rw [query_eq found₁ there₁, state] at done
      cases done

theorem outcome?_congr (hid : w'.id = w.id) (htask : l'.tasks[w'.task]? = l.tasks[w.task]?) :
    l'.outcome? w' = l.outcome? w := by
  simp [outcome?, hid, htask]

theorem over_of_outcome? (sound : Sound l) (found : l.find? id = some w)
    (ended : l.outcome? w = some result) : ∃ e, l.tasks[w.task]? = some (.workflow id .over e) := by
  refine (hasEnded_iff sound found).mp ?_
  unfold outcome? at ended
  split at ended
  next there => simp [hasEnded, there]
  next => cases ended

/-- Who has waited for a workflow has seen its task end. -/
theorem tells_of_wait (sound : Sound l) (found : l.find? id = some w) (unasked : w.awaited = false)
    {limit : Nat} (waited : (l.wait id limit).2 = some result) :
    (l.wait id limit).1.Tells id result := by
  have later := sound.leads (leads_wait id limit)
  unfold wait at waited later ⊢
  simp only [found, unasked] at waited later ⊢
  obtain ⟨-, same⟩ := @leads_waitUntil (l.claim id) (fun l => (l.outcome? w).isSome) limit
  generalize ((l.claim id).waitUntil (fun l => (l.outcome? w).isSome) limit).1 = l' at *
  have found' : l'.find? id = some { w with awaited := true } := by
    have claimed := @find?_claim l id id
    rw [found] at claimed
    simpa [Launcher.find?, same, find?_id found] using claimed
  have ended : l'.outcome? { w with awaited := true } = some result := waited
  obtain ⟨e, there⟩ := over_of_outcome? later found' ended
  obtain ⟨result', ended', tells⟩ := tells_of_over later found' there
  obtain rfl := Option.some.inj (ended.symm.trans ended')
  exact tells

/-- Once the task of a workflow has ended, the workflow is done and may be forgotten, unless the
task has broken down. Then it is still said to be running, and nobody can ever forget it. -/
theorem ended_workflows_tell {engine : Engine} {world : World} {maxParallel : Nat}
    (leads : Leads (new engine world maxParallel) l) :
    (∀ id w, l.find? id = some w → l.hasEnded w = true →
      ∃ result, l.outcome? w = some result ∧ l.Tells id result ∧
        ∀ l', Leads l l' →
          (∀ w', l'.find? id = some w' → w'.task = w.task →
            l'.outcome? w' = some result ∧ l'.Tells id result) ∧
          (isAborted result = true → ∃ w', l'.find? id = some w' ∧ w'.task = w.task)) ∧
      ∀ id w limit result, l.find? id = some w → w.awaited = false →
        (l.wait id limit).2 = some result → (l.wait id limit).1.Tells id result := by
  have sound := (sound_new engine world maxParallel).leads leads
  refine ⟨fun id w found ended => ?_, fun id w limit result found unasked waited => ?_⟩
  · obtain ⟨e, there⟩ := (hasEnded_iff sound found).mp ended
    obtain ⟨result, outcome, tells⟩ := tells_of_over sound found there
    refine ⟨result, outcome, tells, fun l' later => ⟨fun w' found' same => ?_, fun aborted => ?_⟩⟩
    · have there' := later.ended sound there
      rw [← same] at there'
      obtain ⟨result', outcome', tells'⟩ := tells_of_over (sound.leads later) found' there'
      have unchanged : l'.outcome? w' = l.outcome? w :=
        outcome?_congr ((find?_id found').trans (find?_id found).symm) (there'.trans there.symm)
      obtain rfl := Option.some.inj (outcome.symm.trans (unchanged.symm.trans outcome'))
      exact ⟨outcome', tells'⟩
    · rw [Tells, if_pos aborted] at tells
      exact later.lingers sound found there tells
  · exact tells_of_wait sound found unasked waited

/-! ### A launcher with two workflows, one of which breaks down -/

namespace Duo

def plugin : Plugin where
  methods := [("pass", "pass"), ("crash", "crash")]
  invoke method _ := if method = "crash" then .crash "broken" else .done (.ok none)

def world : World := { registry := (Registry.empty.register "duo" plugin).1 }

/-- A script with one step. -/
def script (step : String) : String :=
  "pipeline \x7b agent none stages \x7b stage('S') \x7b steps \x7b " ++ step ++
    " \x7d \x7d \x7d \x7d"

/-- The first workflow is over. -/
def launcher : Launcher :=
  [Request.submit "good" (script "pass 'x'") [], .wait "good" 1000,
    .submit "bad" (script "crash 'x'") []].foldl serve (new Execution.Duo.engine world 1)

end Duo

theorem Duo.bad_lingers :
    Duo.launcher.IsDone "good" ∧ (Duo.launcher.wait "bad" 1000).1.Lingers "bad" := by
  have leads : Leads (new Execution.Duo.engine Duo.world 1) Duo.launcher := leads_serve _
  obtain ⟨ended, waited⟩ := ended_workflows_tell leads
  obtain ⟨good, last, well, bad, answers⟩ :
      Duo.launcher.find? "good" = some ⟨"good", 0, true⟩ ∧
      Duo.launcher.hasEnded ⟨"good", 0, true⟩ = true ∧
      (Duo.launcher.outcome? ⟨"good", 0, true⟩).any isAborted = false ∧
      Duo.launcher.find? "bad" = some ⟨"bad", 1, false⟩ ∧
      (Duo.launcher.wait "bad" 1000).2.any isAborted = true := by
    decide +kernel
  refine ⟨?_, ?_⟩
  · obtain ⟨result, outcome, tells, -⟩ := ended "good" ⟨"good", 0, true⟩ good last
    rw [outcome, Option.any_some] at well
    simpa [Tells, well] using tells
  · obtain ⟨result, answer, aborted⟩ := (Option.any_eq_true ..).mp answers
    have tells := waited "bad" ⟨"bad", 1, false⟩ 1000 result bad rfl answer
    rwa [Tells, if_pos aborted] at tells

end Launcher

end PipelineRunner
