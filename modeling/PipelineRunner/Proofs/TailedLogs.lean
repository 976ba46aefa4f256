import PipelineRunner.Proofs.LogKeeping

/-! Following the log of a workflow. The follower asks again and again for the state and then takes
what has been logged since, while the launcher goes on; it may do so between any two records, in the
middle of a turn as well. What it has taken once it has seen the end is the whole log. -/

namespace PipelineRunner

/-- What happens while somebody follows a workflow: something is recorded, or the follower asks for
the state or takes what has been logged. -/
inductive Happening where
  | occurs (r : Record)
  | looks
  | takes

namespace Happening

def record? : Happening → Option Record
  | occurs r => some r
  | _ => none

/-- The logs behind a happening. -/
def after (id : String) (logs : LogBuffer) : Happening → LogBuffer
  | occurs r => r.write logs
  | looks => logs
  | takes => (logs.drain id).1

end Happening

/-- What is recorded meanwhile. -/
def recordsOf (acts : List Happening) : List Record := acts.filterMap Happening.record?

/-- The logs behind all that happens. -/
def logsAfter (id : String) (logs : LogBuffer) (acts : List Happening) : LogBuffer :=
  acts.foldl (Happening.after id) logs

/-- What the follower takes, batch by batch. -/
def batches (id : String) : LogBuffer → List Happening → List (List LogEntry)
  | _, [] => []
  | logs, .takes :: rest => (logs.drain id).2 :: batches id (logs.drain id).1 rest
  | logs, act :: rest => batches id (act.after id logs) rest

/-- The state that the follower is told at the end of all this. -/
def stateTold (id : String) (acts : List Happening) : WorkflowState :=
  statesAfter id .pending (recordsOf acts)

section Taking

variable {id other : String} {logs logs' : LogBuffer} {acts more : List Happening}

theorem recordsOf_append : recordsOf (acts ++ more) = recordsOf acts ++ recordsOf more := by
  simp [recordsOf]

theorem recordsOf_cons (r : Record) : recordsOf (.occurs r :: acts) = r :: recordsOf acts := rfl

@[simp] theorem recordsOf_looks : recordsOf (.looks :: acts) = recordsOf acts := rfl

@[simp] theorem recordsOf_takes : recordsOf (.takes :: acts) = recordsOf acts := rfl

@[simp] theorem recordsOf_nil : recordsOf [] = [] := rfl

theorem logsAfter_append :
    logsAfter id logs (acts ++ more) = logsAfter id (logsAfter id logs acts) more :=
  List.foldl_append

theorem entries_after (act : Happening) (same : logs.entries id = logs'.entries id) :
    (act.after id logs).entries id = (act.after id logs').entries id := by
  cases act with
  | occurs r => simp only [Happening.after, LogBuffer.entries_write, same]
  | looks => exact same
  | takes => simp only [Happening.after, LogBuffer.entries_drain_self]

theorem entries_logsAfter (same : logs.entries id = logs'.entries id) :
    (logsAfter id logs acts).entries id = (logsAfter id logs' acts).entries id := by
  induction acts generalizing logs logs' with
  | nil => exact same
  | cons act rest ih => exact ih (entries_after act same)

/-- Taking from one log leaves the others alone. -/
theorem entries_logsAfter_of_ne (different : other ≠ id) :
    (logsAfter id logs acts).entries other = (writeAll logs (recordsOf acts)).entries other := by
  induction acts generalizing logs with
  | nil => rfl
  | cons act rest ih =>
    have later := @ih (act.after id logs)
    rw [LogBuffer.entries_writeAll] at later ⊢
    rw [show logsAfter id logs (act :: rest) = logsAfter id (act.after id logs) rest from rfl, later]
    cases act with
    | occurs r =>
      rw [recordsOf_cons]
      simp only [Happening.after, LogBuffer.entries_write, List.append_assoc]
      cases h : r.entry? other <;> simp [entriesOf, h]
    | looks => rfl
    | takes =>
      rw [recordsOf_takes, Happening.after, LogBuffer.entries_drain_of_ne different]

/-- Nothing is lost between the batches: what has been taken, with what is still there, is what was
there at first with what has been logged since. -/
theorem batches_flatten (id : String) (logs : LogBuffer) (acts : List Happening) :
    (batches id logs acts).flatten ++ (logsAfter id logs acts).entries id =
      logs.entries id ++ entriesOf id (recordsOf acts) := by
  induction acts generalizing logs with
  | nil => simp [batches, logsAfter, recordsOf, entriesOf]
  | cons act rest ih =>
    have later := @ih (act.after id logs)
    rw [show logsAfter id logs (act :: rest) = logsAfter id (act.after id logs) rest from rfl]
    cases act with
    | occurs r =>
      rw [show batches id logs (.occurs r :: rest) = batches id (r.write logs) rest from rfl,
        recordsOf_cons]
      refine later.trans ?_
      rw [Happening.after, LogBuffer.entries_write, List.append_assoc]
      cases h : r.entry? id <;> simp [entriesOf, h]
    | looks => exact later
    | takes =>
      rw [batches, List.flatten_cons, List.append_assoc, LogBuffer.drain_taken]
      rw [Happening.after, LogBuffer.entries_drain_self, List.nil_append] at later
      exact congrArg _ later

theorem entries_logsAfter_takes : (logsAfter id logs (acts ++ [.takes])).entries id = [] := by
  rw [logsAfter_append]
  exact LogBuffer.entries_drain_self

/-- Who takes behind the last entry has taken all of them. -/
theorem batches_complete (fresh : logs.entries id = [])
    (silent : entriesOf id (recordsOf more) = []) :
    (batches id logs (acts ++ [.takes])).flatten =
      entriesOf id (recordsOf (acts ++ .takes :: more)) := by
  have all := batches_flatten id logs (acts ++ [.takes])
  rw [entries_logsAfter_takes, List.append_nil, fresh, List.nil_append] at all
  rw [all]
  simp only [recordsOf_append, entriesOf_append, recordsOf_takes, silent]
  rfl

end Taking

namespace Launcher

variable {id : String} {l₁ l l' l'' : Launcher} {acts more : List Happening}

/-- The launcher with other logs. -/
def withLogs (l : Launcher) (logs : LogBuffer) : Launcher :=
  { l with world := { l.world with logs } }

@[simp] theorem withLogs_workflows (l : Launcher) (logs : LogBuffer) :
    (l.withLogs logs).workflows = l.workflows := rfl

/-- Somebody follows a workflow that has just been submitted. Turns of tasks, in which the follower
may look and take between any two records, and whatever else goes on around them take turns. -/
inductive Followed (id : String) (l₁ : Launcher) : List Happening → Launcher → Prop
  | begins : Followed id l₁ [] l₁
  | turn {acts more : List Happening} {l l' : Launcher} {n : Nat} (so : Followed id l₁ acts l)
    (had : l.turn n = some l')
    (noted : l'.world.history = (recordsOf more).reverse ++ l.world.history) :
    Followed id l₁ (acts ++ more) (l'.withLogs (logsAfter id l.world.logs more))
  | aside {acts : List Happening} {l l' : Launcher} (so : Followed id l₁ acts l)
    (aside : Aside id l l') : Followed id l₁ acts l'
  | looks {acts : List Happening} {l : Launcher} (so : Followed id l₁ acts l) :
    Followed id l₁ (acts ++ [.looks]) l
  | takes {acts : List Happening} {l : Launcher} (so : Followed id l₁ acts l) :
    Followed id l₁ (acts ++ [.takes]) (l.takeLogs id).1

/-- The follower and the launcher agree on the workflow. -/
structure Agree (id : String) (l₁ : Launcher) (acts : List Happening) (l : Launcher) : Prop where
  keeps : l.Keeps
  leads : Leads l₁ l
  known : ∃ w, l.find? id = some w
  state : ∃ (n : Nat) (a : Admission) (e : Execution), l.tasks[n]? = some (.workflow id a e) ∧
    e.state.state = stateTold id acts
  timely : Timely id .pending (recordsOf acts)
  entries : l.world.logs.entries id = (logsAfter id l₁.world.logs acts).entries id

theorem Aside.find? (aside : Aside id l l') {w : Workflow} (found : l.find? id = some w) :
    ∃ w', l'.find? id = some w' := by
  cases aside with
  | queued | time | outside | take => exact ⟨w, found⟩
  | submit other source properties =>
    cases parsed : Script.parse source with
    | error error => exact ⟨w, by rw [submit_error properties parsed, found]⟩
    | ok pipeline =>
      rw [submit_ok properties parsed]
      unfold Launcher.find? at found ⊢
      exact ⟨w, by simp [List.find?_append, found]⟩
  | claim other => exact ⟨_, by rw [find?_claim, found]; rfl⟩
  | remove other different =>
    unfold Launcher.remove
    split
    · refine ⟨w, ?_⟩
      unfold Launcher.find? at found ⊢
      rw [List.find?_filter, ← found]
      congr 1
      funext w
      by_cases asked : w.id = id
      · simp [asked, Ne.symm different]
      · simp [asked]
    · exact ⟨w, found⟩

/-- Only the log that somebody takes from is not what the records tell. -/
theorem Keeps.withLogs (keeps : l.Keeps) (logs : LogBuffer)
    (same : ∀ id, (∀ a e, Task.workflow id a e ∉ l.tasks) →
      logs.entries id = l.world.logs.entries id) : (l.withLogs logs).Keeps :=
  ⟨keeps.waits.of_tasks rfl rfl, keeps.discreet, keeps.silent, keeps.minds, keeps.distinct,
    keeps.known, fun id missing => (same id missing).trans (keeps.blank id missing)⟩

theorem Agree.turn (agree : Agree id l₁ acts l) {n : Nat} (had : l.turn n = some l')
    (noted : l'.world.history = (recordsOf more).reverse ++ l.world.history) :
    Agree id l₁ (acts ++ more) (l'.withLogs (logsAfter id l.world.logs more)) := by
  obtain ⟨news, wrote, keeps'⟩ := agree.keeps.turn had
  obtain rfl : news = recordsOf more :=
    List.reverse_inj.mp (List.append_cancel_right (wrote.history.symm.trans noted))
  obtain ⟨m, a, e, there, state⟩ := agree.state
  obtain ⟨a', e', there', state', timely⟩ := wrote.tells m id a e there
  obtain ⟨w, found⟩ := agree.known
  refine ⟨keeps'.withLogs _ fun other missing => ?_, .next (.next agree.leads (.turn had)) (.world _),
    ⟨w, ?_⟩, ⟨m, a', e', there', ?_⟩, ?_, ?_⟩
  · have different : other ≠ id := by
      rintro rfl
      exact missing a' e' (List.mem_of_getElem? there')
    rw [entries_logsAfter_of_ne different, wrote.logs]
  · have same : l'.workflows = l.workflows := turn_workflows had
    rw [Launcher.find?, withLogs_workflows, same]
    exact found
  · rw [state', state, stateTold, stateTold, recordsOf_append, statesAfter_append]
  · rw [recordsOf_append]
    exact timely_append.mpr ⟨agree.timely, by rwa [state] at timely⟩
  · rw [logsAfter_append]
    exact entries_logsAfter agree.entries

theorem Agree.aside (agree : Agree id l₁ acts l) (aside : Aside id l l') :
    Agree id l₁ acts l' := by
  obtain ⟨w, found⟩ := agree.known
  obtain ⟨n, a, e, there, state⟩ := agree.state
  obtain ⟨rota, there'⟩ := aside.tasks there
  exact ⟨agree.keeps.aside aside, .next agree.leads aside.goes, aside.find? found,
    ⟨n, a, _, there', state⟩, agree.timely, aside.entries.trans agree.entries⟩

theorem Agree.looks (agree : Agree id l₁ acts l) : Agree id l₁ (acts ++ [.looks]) l := by
  have same : recordsOf (acts ++ [.looks]) = recordsOf acts := by
    simp [recordsOf_append]
  refine ⟨agree.keeps, agree.leads, agree.known, ?_, same ▸ agree.timely, ?_⟩
  · rw [stateTold, same]
    exact agree.state
  · rw [logsAfter_append]
    exact agree.entries

theorem Agree.takes (agree : Agree id l₁ acts l) :
    Agree id l₁ (acts ++ [.takes]) (l.takeLogs id).1 := by
  have same : recordsOf (acts ++ [.takes]) = recordsOf acts := by
    simp [recordsOf_append]
  obtain ⟨n, a, e, there, state⟩ := agree.state
  refine ⟨agree.keeps.withLogs _ fun other missing => ?_, .next agree.leads (.world _), agree.known,
    ⟨n, a, e, there, by rw [state, stateTold, stateTold, same]⟩, same ▸ agree.timely, ?_⟩
  · have different : other ≠ id := by
      rintro rfl
      exact missing a e (List.mem_of_getElem? there)
    exact LogBuffer.entries_drain_of_ne different
  · rw [entries_logsAfter_takes]
    exact LogBuffer.entries_drain_self

theorem Followed.agree (followed : Followed id l₁ acts l) (begun : Agree id l₁ [] l₁) :
    Agree id l₁ acts l := by
  induction followed with
  | begins => exact begun
  | turn so had noted ih => exact ih.turn had noted
  | aside so aside ih => exact ih.aside aside
  | looks so ih => exact ih.looks
  | takes so ih => exact ih.takes

theorem submit_world (id source : String) (properties : Properties) :
    (l.submit id source properties).1.world = l.world := by
  cases parsed : Script.parse source with
  | error error => rw [submit_error properties parsed]
  | ok pipeline => rw [submit_ok properties parsed]

theorem takeLogs_history (l : Launcher) (id : String) :
    (l.takeLogs id).1.world.history = l.world.history := rfl

theorem Reaches.leads (reaches : Reaches l l') : Leads l l' := by
  induction reaches with
  | here => exact .here
  | turn so had ih => exact .next ih (.turn had)
  | aside so spared aside ih => exact .next ih aside.goes

/-- A workflow that has just been submitted is pending, and nothing has been logged for it. -/
theorem agree_submit {source : String} {properties : Properties} (keeps : l.Keeps)
    (fresh : ∀ a e, Task.workflow id a e ∉ l.tasks)
    (submitted : l.submit id source properties = (l₁, .ok ())) : Agree id l₁ [] l₁ := by
  have keeps₁ : (l.submit id source properties).1.Keeps := keeps.submit source properties fresh
  rw [submitted] at keeps₁
  cases parsed : Script.parse source with
  | error error => simp [submit, parsed] at submitted
  | ok pipeline =>
    have new : (l.submit id source properties).1 = _ := submit_ok properties parsed
    rw [submitted] at new
    obtain rfl : l₁ = _ := new
    refine ⟨keeps₁, .here, ?_, ⟨l.tasks.length, .arriving, _, List.getElem?_concat_length, rfl⟩,
      trivial, rfl⟩
    refine Option.isSome_iff_exists.mp ?_
    simp [Launcher.find?]

/-- What is empty stays so while nothing is logged, whoever takes or forgets. -/
theorem Aside.still_empty {spared : String} (aside : Aside spared l l')
    (empty : l.world.logs.entries id = []) : l'.world.logs.entries id = [] := by
  cases aside with
  | queued | time | claim => exact empty
  | outside w outward => rw [outward.2.1, empty]
  | submit other source properties =>
    cases parsed : Script.parse source with
    | error error => rwa [submit_error properties parsed]
    | ok pipeline => rwa [submit_ok properties parsed]
  | take other =>
    by_cases same : id = other
    · exact same ▸ LogBuffer.entries_drain_self
    · exact (LogBuffer.entries_drain_of_ne same).trans empty
  | remove other =>
    unfold Launcher.remove
    split
    · by_cases same : id = other
      · exact same ▸ LogBuffer.entries_remove_self
      · exact (LogBuffer.entries_remove_of_ne same).trans empty
    · exact empty

/-- The log of a workflow that is done stays empty once it is. -/
theorem Reaches.stays_empty (reaches : Reaches l l') (keeps : l.Keeps) {n : Nat} {a : Admission}
    {e : Execution} (there : l.tasks[n]? = some (.workflow id a e)) (done : e.state.state = .done)
    (empty : l.world.logs.entries id = []) : l'.world.logs.entries id = [] := by
  suffices h : l'.Keeps ∧ (∃ a e, l'.tasks[n]? = some (.workflow id a e) ∧ e.state.state = .done) ∧
      l'.world.logs.entries id = [] from h.2.2
  induction reaches with
  | here => exact ⟨keeps, ⟨a, e, there, done⟩, empty⟩
  | turn so had ih =>
    obtain ⟨keeps, ⟨a, e, there, done⟩, empty⟩ := ih
    obtain ⟨news, wrote, keeps'⟩ := keeps.turn had
    obtain ⟨a', e', there', state, timely⟩ := wrote.tells n id a e there
    rw [done] at state timely
    obtain ⟨still, silent⟩ := timely.done
    refine ⟨keeps', ⟨a', e', there', state.trans still⟩, ?_⟩
    rw [wrote.logs, LogBuffer.entries_writeAll, empty, entriesOf_eq_nil.mpr silent,
      List.append_nil]
  | aside so spared aside ih =>
    obtain ⟨keeps, ⟨a, e, there, done⟩, empty⟩ := ih
    obtain ⟨rota, there'⟩ := aside.tasks there
    exact ⟨keeps.aside aside, ⟨a, _, there', done⟩, aside.still_empty empty⟩

/-- The state that the launcher tells is the one that the records tell. -/
theorem Agree.query (agree : Agree id l₁ acts l) : l.query id = stateTold id acts := by
  obtain ⟨w, found⟩ := agree.known
  obtain ⟨n, a, e, there, state⟩ := agree.state
  obtain ⟨b, e', here⟩ := agree.keeps.known w (List.mem_of_find?_eq_some found)
  rw [find?_id found] at here
  obtain rfl := agree.keeps.distinct _ _ id _ _ _ _ here there
  rw [query_eq found there, state]

/-- Forgetting a workflow that is done empties its log for good. -/
theorem Agree.forgotten (agree : Agree id l₁ acts l) (removed : l.remove id = (l', true))
    (reaches : Reaches l' l'') : l''.world.logs.entries id = [] := by
  obtain ⟨n, a, e, there, state⟩ := agree.state
  have done : l.query id = .done := by
    rcases @remove_eq l id with ⟨done, -⟩ | ⟨-, kept⟩
    · exact done
    · cases kept.symm.trans removed
  have different : id ≠ id ++ "a" := fun same => by simpa using congrArg String.length same
  have keeps : (l.remove id).1.Keeps := agree.keeps.aside (.remove id different)
  have tasks : (l.remove id).1.tasks = l.tasks := by simp [Launcher.remove, done]
  have empty : (l.remove id).1.world.logs.entries id = [] := by
    simp only [Launcher.remove, if_pos done]
    exact LogBuffer.entries_remove_self
  rw [removed] at keeps tasks empty
  rw [← tasks] at there
  exact reaches.stays_empty keeps there (state.trans (agree.query.symm.trans done)) empty

/-- Following loses nothing. What the follower is told and takes are the answers of the launcher;
once it has been told that the workflow is done, what it has taken by the next time is the whole log,
entry by entry. A workflow that is done stays so and logs nothing any more, each that does not break
down comes to be done, and the log of one that has been forgotten stays empty. -/
theorem followers_miss_nothing {engine : Engine} {world : World} {maxParallel : Nat} {l₀ : Launcher}
    {source : String} {properties : Properties} (silent : engine.runtime.Silent)
    (discreet : world.registry.Discreet) (blank : world.logs = [])
    (reaches : Reaches (new engine world maxParallel) l₀)
    (fresh : ∀ a e, Task.workflow id a e ∉ l₀.tasks)
    (submitted : l₀.submit id source properties = (l₁, .ok ()))
    (followed : Followed id l₁ acts l) :
    l.query id = stateTold id acts ∧
    (l.takeLogs id).2 = (logsAfter id l₁.world.logs acts).entries id ∧
    (∀ before between later, acts = before ++ .looks :: between ++ .takes :: later →
      stateTold id before = .done →
      (batches id l₁.world.logs (before ++ .looks :: between ++ [.takes])).flatten =
        entriesOf id (recordsOf acts)) ∧
    (∀ before later, acts = before ++ later → stateTold id before = .done →
      stateTold id acts = .done ∧ entriesOf id (recordsOf later) = []) ∧
    (∀ w result, l.find? id = some w → l.outcome? w = some result → isAborted result = false →
      stateTold id acts = .done) ∧
    ∀ l', l.remove id = (l', true) → ∀ l'', Reaches l' l'' → l''.world.logs.entries id = [] := by
  have keeps₀ : l₀.Keeps := (keeps_new maxParallel discreet silent blank).reaches reaches
  have begun := agree_submit keeps₀ fresh submitted
  have agree := followed.agree begun
  have taken : (l₀.submit id source properties).1 = l₁ := by rw [submitted]
  have unlogged : l₁.world.logs.entries id = [] := by
    rw [← taken, submit_world, keeps₀.blank id fresh]
  -- Behind the end there are no entries.
  have ended : ∀ before later, acts = before ++ later → stateTold id before = .done →
      stateTold id acts = .done ∧ entriesOf id (recordsOf later) = [] := by
    rintro before later rfl done
    have timely := agree.timely
    rw [recordsOf_append] at timely
    obtain ⟨-, timely⟩ := timely_append.mp timely
    rw [show statesAfter id .pending (recordsOf before) = .done from done] at timely
    obtain ⟨still, quiet⟩ := timely.done
    refine ⟨?_, entriesOf_eq_nil.mpr quiet⟩
    rw [stateTold, recordsOf_append, statesAfter_append,
      show statesAfter id .pending (recordsOf before) = .done from done, still]
  refine ⟨agree.query, ?_, fun before between later split done => ?_, ended,
    fun w result found outcome well => ?_, fun l' removed l'' => agree.forgotten removed⟩
  · rw [← agree.entries]
    exact LogBuffer.drain_taken
  · have quiet := (ended before (.looks :: between ++ .takes :: later) (by simp [split]) done).2
    subst split
    refine batches_complete unlogged ?_
    rw [recordsOf_append, entriesOf_append] at quiet
    exact (List.append_eq_nil_iff.mp quiet).2
  · have submits : Leads l₀ l₁ := .next .here (taken ▸ .submit id source properties)
    have sound : Sound l := (sound_new engine world maxParallel).leads
      ((reaches.leads.trans submits).trans agree.leads)
    obtain ⟨e, there⟩ := over_of_outcome? sound found outcome
    obtain ⟨result', outcome', tells⟩ := tells_of_over sound found there
    obtain rfl := Option.some.inj (outcome.symm.trans outcome')
    rw [Tells, well, if_neg Bool.false_ne_true] at tells
    exact agree.query.symm.trans tells.1

/-! ### Following while the launcher runs by itself -/

section Running

/-- The launcher has gone on from `l` to `l'` while somebody followed who had seen `acts` before. -/
def GoesOn (id : String) (l₁ : Launcher) (acts : List Happening) (l l' : Launcher) : Prop :=
  ∃ news : List Record, l'.world.history = news.reverse ++ l.world.history ∧
    Followed id l₁ (acts ++ news.map .occurs) l'

theorem recordsOf_occurs (news : List Record) : recordsOf (news.map .occurs) = news := by
  simp [recordsOf, Function.comp_def, Happening.record?]

theorem logsAfter_occurs (logs : LogBuffer) (news : List Record) :
    logsAfter id logs (news.map .occurs) = writeAll logs news := by
  simp [logsAfter, writeAll, List.foldl_map, Happening.after]

theorem Followed.still (so : Followed id l₁ acts l) : GoesOn id l₁ acts l l :=
  ⟨[], rfl, by simpa using so⟩

/-- A turn during which the follower does nothing leaves the launcher as it leaves it anyway. -/
theorem GoesOn.turn (goes : GoesOn id l₁ acts l l') (begun : Agree id l₁ [] l₁) {n : Nat}
    (had : l'.turn n = some l'') : GoesOn id l₁ acts l l'' := by
  obtain ⟨news, history, so⟩ := goes
  obtain ⟨more, wrote, -⟩ := (so.agree begun).keeps.turn had
  refine ⟨news ++ more, by rw [wrote.history, history]; simp, ?_⟩
  have turned : Followed id l₁ _
      (l''.withLogs (logsAfter id l'.world.logs (more.map .occurs))) :=
    so.turn had (by rw [recordsOf_occurs, wrote.history])
  have same : l''.withLogs l''.world.logs = l'' := rfl
  rw [logsAfter_occurs, ← wrote.logs, same] at turned
  simpa using turned

theorem GoesOn.aside (goes : GoesOn id l₁ acts l l') (same : l''.world.history = l'.world.history)
    (aside : Aside id l' l'') : GoesOn id l₁ acts l l'' := by
  obtain ⟨news, history, so⟩ := goes
  exact ⟨news, same.trans history, so.aside aside⟩

theorem GoesOn.step (goes : GoesOn id l₁ acts l l') (begun : Agree id l₁ [] l₁)
    (stepped : l'.step = some l'') : GoesOn id l₁ acts l l'' := by
  unfold Launcher.step at stepped
  split at stepped
  next => cases stepped
  next n rest queue =>
    split at stepped
    next =>
      cases stepped
      exact goes.aside rfl (.queued rest)
    next after had =>
      have turned := goes.turn begun had
      split at stepped <;> cases stepped
      · exact turned.aside rfl (.queued _)
      · exact turned

theorem Followed.settleWithin (so : Followed id l₁ acts l) (begun : Agree id l₁ [] l₁)
    (turns : Nat) : GoesOn id l₁ acts l (clockwork.settleWithin turns l) :=
  Clockwork.settleWithin_preserves (m := clockwork) (P := GoesOn id l₁ acts l)
    (fun _ _ stepped goes => goes.step begun stepped) _ so.still

end Running

/-! ### A workflow that is followed between its two steps, and again at the end -/

namespace Duo

/-- A plugin that logs what it is told. -/
def teller : Plugin where
  methods := [("tell", "tell")]
  invoke _ params :=
    match params.get? workflowKey with
    | some id => .log id .info ((params.get? Step.textKey).getD "") (.done (.ok none))
    | none => .done (.ok none)

def tellers : World := { registry := (Registry.empty.register "duo" teller).1 }

def submitted : Launcher :=
  ((new Execution.Duo.engine tellers 1).submit "good" (script "tell 'first' tell 'second'") []).1

/-- The first step has been made. -/
def halfway : Launcher := clockwork.settleWithin 9 submitted

/-- The first batch has been taken. -/
def taken : Launcher := (halfway.takeLogs "good").1

def through : Launcher := taken.settle

theorem silent : Execution.Duo.engine.runtime.Silent :=
  ⟨fun _ => trivial, fun _ => trivial, fun _ => trivial⟩

theorem discreet : tellers.registry.Discreet := by
  intro p mem
  obtain rfl : p = ⟨"duo", 0, teller⟩ := List.mem_singleton.mp mem
  intro method params
  simp only [teller]
  cases told : params.get? workflowKey <;> simp [Work.LogsFor]

theorem submit_eq :
    (new Execution.Duo.engine tellers 1).submit "good" (script "tell 'first' tell 'second'") [] =
      (submitted, .ok ()) := by
  have parses : (Script.parse (script "tell 'first' tell 'second'")).isOk = true := by
    decide +kernel
  cases parsed : Script.parse (script "tell 'first' tell 'second'") with
  | error e => simp [parsed, Except.isOk, Except.toBool] at parses
  | ok pipeline => simp [submitted, submit, parsed]

end Duo

/-- Taken in two batches, the log of the workflow is complete. -/
theorem Duo.both_batches : ∃ acts, Followed "good" Duo.submitted acts (Duo.through.takeLogs "good").1 ∧
    (batches "good" Duo.submitted.world.logs acts).flatten.map (·.message) =
      ["Stage 'S' started", "first", "second"] := by
  have reaches : Reaches (new Execution.Duo.engine Duo.tellers 1) _ := .here
  have fresh : ∀ a e, Task.workflow "good" a e ∉ (new Execution.Duo.engine Duo.tellers 1).tasks := by
    simp [new]
  have told {acts l} (followed : Followed "good" Duo.submitted acts l) :=
    followers_miss_nothing Duo.silent Duo.discreet rfl reaches fresh Duo.submit_eq followed
  have begun : Agree "good" Duo.submitted [] Duo.submitted :=
    agree_submit (keeps_new 1 Duo.discreet Duo.silent rfl) fresh Duo.submit_eq
  have f₀ : Followed "good" Duo.submitted [] Duo.submitted := .begins
  obtain ⟨first, h₁, f₁⟩ : GoesOn "good" Duo.submitted [] Duo.submitted Duo.halfway :=
    f₀.settleWithin begun 9
  have f₂ : Followed "good" Duo.submitted _ Duo.taken := f₁.looks.takes
  obtain ⟨second, h₂, f₃⟩ : GoesOn "good" Duo.submitted _ Duo.taken Duo.through :=
    f₂.settleWithin begun _
  have untouched : Duo.submitted.world.history = [] := by
    rw [Duo.submitted, submit_world]
    rfl
  have taking : Duo.taken.world.history = Duo.halfway.world.history := by
    rw [Duo.taken, takeLogs_history]
  have records : Duo.through.world.history.reverse = first ++ second := by
    rw [h₂, taking, h₁, untouched]
    simp
  have ended : Duo.through.query "good" = .done := by decide +kernel
  have entries : (entriesOf "good" Duo.through.world.history.reverse).map (·.message) =
      ["Stage 'S' started", "first", "second"] := by
    decide +kernel
  have complete := (told f₃.looks.takes).2.2.1 _ [] [] (by simp) ((told f₃).1.symm.trans ended)
  rw [records] at entries
  refine ⟨_, f₃.looks.takes, ?_⟩
  rw [← entries]
  refine congrArg (List.map _) ?_
  simpa [recordsOf_append, recordsOf_occurs] using complete

end Launcher

end PipelineRunner
