import PipelineRunner.Proofs.Settling
import PipelineRunner.Proofs.Untouched

/-! How workflows are launched, whatever is asked of a launcher and whatever the plugins do. So many
of them are under way at once as there are permits; a permit is given back however a workflow ends;
they begin in the order of submission, but for those that have just been given their permits; none
leaves a trace before it begins; and each report is given once. -/

namespace PipelineRunner

namespace Execution

variable {engine : Engine} {pipeline : Pipeline} {properties : Properties} {past : List Moment}
  {e : Execution} {id : String}

/-- An execution that knows its workflow is pending until it begins. -/
theorem Run.fresh_of_pending (so : Run engine pipeline properties ⟨.pending, 0⟩ past e)
    (known : properties.workflowId = .ok id) (pending : e.state.state = .pending) :
    e.phase = .fresh := by
  suffices begun : e.phase ≠ .fresh → e.state.state ≠ .pending from
    Classical.not_not.mp fun h => begun h pending
  clear pending
  induction so with
  | begins => exact fun begun => absurd rfl begun
  | called so rota ih => exact ih
  | @turn past e e' path w w' news so moved noted ih =>
    intro _
    have properties := so.fits.2.1
    cases turned_of_move moved with
    | refused fresh missing =>
      rw [properties, known] at missing
      cases missing
    | begins => cases h : e.state.state <;> simp [h, WorkflowState.max, WorkflowState.before,
        WorkflowState.code]
    | finishes | fails => simp
    | starts phase | succeeds phase | inside phase => exact ih (by simp [phase])

end Execution

/-- Whether the workflow of a task has begun and the task has not ended. -/
def Task.isUnderWay : Task → Bool
  | .workflow _ .over _ => false
  | task => task.hasBegun

/-- No record carries the identifier of a workflow, and nothing is logged. -/
structure World.IsBlank (w : World) : Prop where
  untold : ∀ r ∈ w.history, ∀ id, id ≠ "" → ¬r.Carries id
  unlogged : ∀ r ∈ w.history, ∀ id, ¬r.IsEntry id
  logs : w.logs = []

namespace Launcher

variable {l l' : Launcher} {k m n : Nat} {id : String} {e e' : Execution} {w : Workflow}

/-! ### Permits -/

/-- How many workflows have begun without their tasks having ended. -/
def underWay (l : Launcher) : Nat := l.tasks.countP Task.isUnderWay

theorem underWay_le (sound : l.Sound) : l.underWay ≤ l.running := by
  refine List.countP_mono_left fun task mem under => ?_
  obtain ⟨n, there⟩ := List.mem_iff_getElem?.mp mem
  cases task with
  | cleanup c => cases under
  | workflow id a e =>
    have fits := sound.fits n _ there
    cases a with
    | running => rfl
    | arriving | waiting =>
      have fresh := fits.fresh (by decide)
      simp [Task.isUnderWay, Task.hasBegun, Execution.isFresh_iff.mpr fresh] at under
    | _ => cases under

theorem foldl_spawnCleanup_free (held : List String) :
    (held.foldl spawnCleanup l).free = l.free := by
  induction held generalizing l with
  | nil => rfl
  | cons container rest ih => exact ih

/-- A task that ends gives its permit back at the end of the turn. -/
theorem release_of_turn (there : l.tasks[n]? = some (.workflow id .running e))
    (had : l.turn n = some l') (ended : l'.tasks[n]? = some (.workflow id .over e')) :
    ∃ l₁ : Launcher, l' = l₁.release ∧ l₁.waiting = l.waiting ∧ l₁.free = l.free := by
  simp only [turn, there] at had
  split at had
  next result _ =>
    cases had
    obtain ⟨world, closed⟩ := @close_eq l n id e result
    exact ⟨_, closed, rfl, rfl⟩
  next =>
    split at had
    next w e₁ moved =>
      cases had
      cases (tasks_after there id w e₁).symm.trans ended
    next w reason held crashed =>
      cases had
      exact ⟨_, rfl, (foldl_spawnCleanup held).2.1, foldl_spawnCleanup_free held⟩
    next => cases had

/-- The turn in which a task ends is a whole step. -/
theorem turn_of_ended (waits : Waits l) (stepped : l.step = some l')
    (there : l.tasks[n]? = some (.workflow id .running e))
    (ended : l'.tasks[n]? = some (.workflow id .over e')) : l.turn n = some l' := by
  cases step_cases waits stepped with
  | passes => cases there.symm.trans ended
  | @turns i rest _ queue had =>
    obtain ⟨task, task', more, here, does, granted⟩ := turn_cases waits had
    obtain ⟨new, now, granted⟩ := tasks_forward granted there
    by_cases same : i = n
    · exact same ▸ had
    · rw [if_neg same] at granted
      cases granted
      cases now.symm.trans ended
  | @yields i rest _ e₁ e₂ w' queue here moved off called had =>
    by_cases same : i = n
    · subst same
      cases (tasks_after here _ w' e₂).symm.trans ended
    · cases there.symm.trans ((tasks_setTask_ne same _).symm.trans ended)

/-- The permit of a task that has ended is free if nobody waits for one; otherwise it is had by who has
waited longest. -/
theorem permit_of_ended (inLine : l.InLine k) (sound : l.Sound) (stepped : l.step = some l')
    (there : l.tasks[n]? = some (.workflow id .running e))
    (ended : l'.tasks[n]? = some (.workflow id .over e')) :
    (l.waiting = [] → l'.free = l.free + 1) ∧
      ∀ m rest, l.waiting = m :: rest → l'.waiting = rest ∧ l'.isReady m = true := by
  have had := turn_of_ended sound.waits stepped there ended
  have later := inLine.step stepped
  obtain ⟨l₁, released, waiting, free⟩ := release_of_turn there had ended
  refine ⟨fun none_ => ?_, fun m rest some_ => ?_⟩
  · rw [released, release, waiting, none_, ← free]
  · have left : l'.waiting = rest := by rw [released, release, waiting, some_]
    refine ⟨left, ?_⟩
    obtain ⟨id', e₁, here⟩ := sound.waits.idle m (by simp [some_])
    obtain ⟨task, task', more, -, -, granted⟩ := turn_cases sound.waits had
    obtain ⟨new, now, granted⟩ := tasks_forward granted here
    have other : n ≠ m := by
      rintro rfl
      cases there.symm.trans here
    rw [if_neg other] at granted
    cases granted with
    | granted => exact isReady_iff.mpr ⟨_, _, now, (sound.fits m _ here).fresh (by decide)⟩
    | same =>
      -- Who waits still would stand in the line twice.
      have waits := (later.line.waits m).mpr (admission?_of_task now)
      have once := sound.waits.once
      rw [left] at waits
      rw [some_, List.nodup_cons] at once
      exact absurd waits once.1

/-- A turn behind which a task wants no other is a whole step. -/
theorem step_of_turn {rest : List Nat} (queue : l.queue = n :: rest) (had : l.turn n = some l')
    (calm : l'.isRestless n = false) : l.step = some l' := by
  unfold Launcher.step
  rw [queue]
  dsimp only
  rw [had]
  dsimp only
  rw [calm, Bool.and_false, if_neg Bool.false_ne_true]

/-- A turn in which a workflow breaks down ends its task. -/
theorem ended_of_crash {rest : List Nat} {world : World} {reason : String} {held : List String}
    (sound : l.Sound) (queue : l.queue = n :: rest)
    (there : l.tasks[n]? = some (.workflow id .running e))
    (crashed : e.step l.engine l.world = .crashed world reason held) :
    ∃ l', l.step = some l' ∧
      l'.tasks[n]? = some (.workflow id .over { e with phase := .crashed reason }) := by
  obtain ⟨_, _, _, _, _, _, phase⟩ :=
    Execution.inStage_of_crashed (Execution.step_crashed crashed)
  have live : e.result? = none := by simp [Execution.result?, phase]
  have had : l.turn n = some ({ l with world } |>.breakDown n id e reason held) := by
    simp only [turn, there, live, crashed]
  have granted := breakDown_granted (l := { l with world }) (sound.waits.of_tasks rfl rfl) there
    reason held
  obtain ⟨new, now, granted⟩ := tasks_forward granted there
  rw [if_pos rfl] at granted
  cases granted
  exact ⟨_, step_of_turn queue had (by rw [isRestless, now]), now⟩

/-! ### The order of beginning -/

/-- Who has begun was behind nobody but those that are ready to begin. -/
theorem begun_or_ready (inLine : l.InLine k) (sound : l.Sound) (before : m < n)
    (begun : l.hasBegun n = true) (workflow : l.admission? m ≠ none) :
    l.hasBegun m = true ∨ l.isReady m = true ∧ m ∈ l.queue := by
  obtain ⟨task, there, begun⟩ := (Option.any_eq_true ..).mp begun
  cases task with
  | cleanup c => cases begun
  | workflow id b e =>
    obtain ⟨a, here⟩ := Option.ne_none_iff_exists'.mp workflow
    have permitted : 2 ≤ b.rank := by
      by_contra unasked
      have fresh := (sound.fits n _ there).fresh (Nat.not_le.mp unasked)
      simp [Task.hasBegun, Execution.isFresh_iff.mpr fresh] at begun
    have ahead := inLine.line.ranks before here (admission?_of_task there)
    obtain ⟨id', e', here⟩ := admission?_eq_some.mp here
    rcases (sound.fits m _ here).hasBegun_or (Nat.le_trans permitted ahead) with begun | ready
    · exact .inl ((Option.any_eq_true ..).mpr ⟨_, here, begun⟩)
    · have ready : l.isReady m = true := (Option.any_eq_true ..).mpr ⟨_, here, ready⟩
      obtain ⟨id', e', here, fresh⟩ := isReady_iff.mp ready
      exact .inr ⟨ready, (inLine.queued.ready here (by simp) fresh).2 rfl⟩

theorem queue_of_rest (rest : l.step = none) : l.queue = [] := by
  unfold Launcher.step at rest
  split at rest
  next queue => exact queue
  next =>
    split at rest
    · cases rest
    · split at rest <;> cases rest

/-- Who has a permit begins as soon as nothing else can go on. -/
theorem begins_of_ready (inLine : l.InLine k) (sound : l.Sound) (ready : l.isReady n = true) :
    ∃ turns, ∀ fuel, turns ≤ fuel → (clockwork.settleWithin fuel l).hasBegun n = true := by
  obtain ⟨turns, rests⟩ := settles sound
  refine ⟨turns, fun fuel enough => ?_⟩
  have course : Course anytime l (clockwork.settleWithin fuel l) := course_settleWithin fuel
  have sound' := sound.leads (Course.leads course)
  obtain ⟨id, e, there, -⟩ := isReady_iff.mp ready
  obtain ⟨task, now, becomes⟩ := ((Course.leads course).evolves sound).tasks n _ there
  have permitted : ∃ a e', task = .workflow id a e' ∧ 2 ≤ a.rank := by
    clear now
    induction becomes with
    | stays => exact ⟨_, _, rfl, Nat.le_refl 2⟩
    | next becomes next ih =>
      obtain ⟨a, e', rfl, permitted⟩ := ih
      cases next with
      | goes | wakes | closes | breaks => exact ⟨_, _, rfl, Nat.le_refl 2⟩
      | _ => exact absurd permitted (by decide)
  obtain ⟨a, e', rfl, permitted⟩ := permitted
  rcases (sound'.fits n _ now).hasBegun_or permitted with begun | ready
  · exact (Option.any_eq_true ..).mpr ⟨_, now, begun⟩
  · have ready : isReady (clockwork.settleWithin fuel l) n = true :=
      (Option.any_eq_true ..).mpr ⟨_, now, ready⟩
    obtain ⟨id, e, there, fresh⟩ := isReady_iff.mp ready
    have mem := ((Course.inLine course inLine).queued.ready there (by simp) fresh).2 rfl
    rw [queue_of_rest (rests fuel enough)] at mem
    cases mem

/-! ### Pending workflows -/

/-- A workflow whose state is pending has not begun. -/
theorem unbegun_of_pending (sound : l.Sound) (named : l.Named) (pending : l.query id = .pending) :
    l.Unbegun id ∧ id ≠ "" := by
  cases found : l.find? id with
  | none => simp [query, found] at pending
  | some w =>
    obtain ⟨a, e, there⟩ := sound.known w (List.mem_of_find?_eq_some found)
    rw [find?_id found] at there
    have mem := List.mem_of_getElem? there
    have state : e.state.state = .pending := (query_eq found there).symm.trans pending
    have fits := sound.fits _ _ there
    have fresh : e.phase = .fresh := by
      cases a with
      | arriving | waiting => exact fits.fresh (by decide)
      | running =>
        have signed : e.Signed id := named.signed _ mem
        cases fits with
        | running id so => exact so.fresh_of_pending (so.fits.2.1 ▸ signed.1) state
      | _ =>
        rcases fits.ended with ⟨_, _, ended⟩ | ⟨_, _, ended⟩ <;> rw [state] at ended <;> cases ended
    refine ⟨fun n b e' here => ?_, named.named id a e mem⟩
    obtain rfl := named.distinct _ _ id a b e e' there here
    rw [hasBegun, there]
    simp [Task.hasBegun, Execution.isFresh_iff.mpr fresh]

/-! ### Waiting for a workflow -/

/-- Somebody has asked for the report of a workflow, which may be forgotten by now. -/
structure Taken (l : Launcher) (id : String) : Prop where
  submitted : ∃ a e, Task.workflow id a e ∈ l.tasks
  awaited : ∀ w, l.find? id = some w → w.awaited = true

theorem find?_remove {w : Workflow} {other : String}
    (found : (l.remove other).1.find? id = some w) : l.find? id = some w := by
  rcases @remove_eq l other with ⟨-, -, rest⟩ | ⟨-, same⟩
  · unfold find? at found ⊢
    rw [rest, List.find?_filter] at found
    by_cases this : id = other
    · subst this
      obtain ⟨asked, -⟩ := List.find?_eq_some_iff_append.mp found
      simp at asked
    · rw [← found]
      congr 1
      funext w
      by_cases asked : w.id = id
      · simp [asked, this]
      · simp [asked]
  · rwa [same] at found

theorem Taken.proceeds (taken : l.Taken id) (sound : l.Sound) {passes : Launcher → Nat → Prop}
    (proceeds : Proceeds passes l l') : l'.Taken id := by
  obtain ⟨⟨a, e, mem⟩, awaited⟩ := taken
  obtain ⟨n, there⟩ := List.mem_iff_getElem?.mp mem
  obtain ⟨a', e', there'⟩ := (proceeds.leads.evolves sound).workflow there
  refine ⟨⟨a', e', List.mem_of_getElem? there'⟩, fun w found => ?_⟩
  cases proceeds with
  | step stepped =>
    rw [find?, (leads_step stepped).2] at found
    exact awaited w found
  | time | take => exact awaited w found
  | submit other source properties new =>
    cases parsed : Script.parse source with
    | error error =>
      rw [submit_error properties parsed] at found
      exact awaited w found
    | ok pipeline =>
      rw [submit_ok properties parsed, find?, List.find?_append] at found
      have different : other ≠ id := by
        rintro rfl
        exact new.2 a e mem
      have unasked : List.find? (fun w : Workflow => w.id == id)
          [{ id := other, task := l.tasks.length }] = none := by simp [different]
      rw [unasked, Option.or_none] at found
      exact awaited w found
  | claim other =>
    rw [find?_claim, Option.map_eq_some_iff] at found
    obtain ⟨w', before, rfl⟩ := found
    split
    · rfl
    · exact awaited w' before
  | remove other => exact awaited w (find?_remove found)

theorem Taken.course (taken : l.Taken id) (sound : l.Sound) {passes : Launcher → Nat → Prop}
    (course : Course passes l l') : l'.Taken id := by
  induction course with
  | refl => exact taken
  | tail course proceeds ih => exact ih.proceeds (sound.leads (Course.leads course)) proceeds

theorem taken_claim (sound : l.Sound) (found : l.find? id = some w) : (l.claim id).Taken id := by
  obtain ⟨a, e, there⟩ := sound.known w (List.mem_of_find?_eq_some found)
  rw [find?_id found] at there
  refine ⟨⟨a, e, List.mem_of_getElem? there⟩, fun w' claimed => ?_⟩
  rw [find?_claim, found, Option.map_some, if_pos (by simp [find?_id found])] at claimed
  cases claimed
  rfl

theorem taken_wait (sound : l.Sound) (found : l.find? id = some w) (limit : Nat) :
    (l.wait id limit).1.Taken id := by
  have claimed : (l.claim id).Sound := sound.goes (.claim id)
  cases asked : w.awaited with
  | false =>
    have waits : Course anytime (l.claim id) (l.wait id limit).1 := by
      simp only [Launcher.wait, found, asked]
      exact course_waitUntil _ limit
    exact (taken_claim sound found).course claimed waits
  | true =>
    have same : (l.wait id limit).1 = l := by simp [Launcher.wait, found, asked]
    obtain ⟨a, e, there⟩ := sound.known w (List.mem_of_find?_eq_some found)
    rw [find?_id found] at there
    rw [same]
    refine ⟨⟨a, e, List.mem_of_getElem? there⟩, fun w' found' => ?_⟩
    cases found.symm.trans found'
    exact asked

/-- Somebody has asked, be it that they still wait. -/
theorem taken_of_asked (sound : l.Sound) (known : (l.find? id).isSome = true)
    (asked : l' = l.claim id ∨ ∃ limit, l' = (l.wait id limit).1) : l'.Taken id ∧ l'.Sound := by
  obtain ⟨w, found⟩ := Option.isSome_iff_exists.mp known
  rcases asked with rfl | ⟨limit, rfl⟩
  · exact ⟨taken_claim sound found, sound.goes (.claim id)⟩
  · exact ⟨taken_wait sound found limit, sound.leads (leads_wait id limit)⟩

/-- What is answered to who comes late. -/
def lateAnswer (l : Launcher) (id : String) : LaunchError :=
  if (l.find? id).isSome then .alreadyAwaited id else .unknownWorkflow id

theorem Taken.wait (taken : l.Taken id) (limit : Nat) :
    l.wait id limit = (l, some (.error (l.lateAnswer id))) := by
  unfold Launcher.wait lateAnswer
  cases found : l.find? id with
  | none => rfl
  | some w =>
    dsimp only
    rw [if_pos (taken.awaited w found)]
    rfl

/-! ### Launching -/

/-- A script that is refused changes nothing. -/
theorem same_of_refused {source : String} {properties : Properties} {error : LaunchError}
    (refused : l.submit id source properties = (l', .error error)) : l' = l := by
  unfold submit at refused
  split at refused <;> cases refused
  rfl

/-- What holds of a launcher at any time that executes so many workflows at once. -/
structure Orderly (maxParallel : Nat) (l : Launcher) : Prop where
  bounded : l.underWay ≤ maxParallel
  /-- No permit is lost. -/
  permits : l.running + l.free = maxParallel
  /-- Who has been overtaken has its permit and stands in the queue. -/
  ready : ∀ m n : Nat, m < n → l.admission? m ≠ none → l.hasBegun n = true →
    l.hasBegun m = true ∨ l.isReady m = true ∧ m ∈ l.queue
  /-- Who has waited for a permit overtakes nobody. -/
  waited : ∀ n l', l.admission? n = some .waiting → Course anytime l l' →
    l'.hasBegun n = true → l'.Follows n
  /-- When nothing can go on, those that have begun are those that were submitted first. -/
  rested : l.step = none → ∀ n, l.hasBegun n = true → l.Follows n
  untold : ∀ id, l.query id = .pending → ∀ r ∈ l.world.history, ¬r.Carries id
  /-- A turn in which a workflow breaks down ends its task. -/
  breaks : ∀ (n : Nat) rest id e world reason held, l.queue = n :: rest →
    l.tasks[n]? = some (.workflow id .running e) →
    e.step l.engine l.world = .crashed world reason held →
    ∃ l', l.step = some l' ∧
      l'.tasks[n]? = some (.workflow id .over { e with phase := .crashed reason })
  /-- A task that ends, whether it has broken down or not, gives its permit to who has waited longest,
  who then begins. -/
  gives : ∀ l' (n : Nat) id e e', l.step = some l' → l.tasks[n]? = some (.workflow id .running e) →
    l'.tasks[n]? = some (.workflow id .over e') →
    (l.waiting = [] → l'.free = l.free + 1) ∧
      ∀ m rest, l.waiting = m :: rest → l'.waiting = rest ∧
        ∃ turns, ∀ fuel, turns ≤ fuel → (clockwork.settleWithin fuel l').hasBegun m = true
  refuses : ∀ id source properties l' error,
    l.submit id source properties = (l', .error error) → l' = l
  /-- Once somebody has asked for a report, nobody else gets it. -/
  once : ∀ id l₁ l', (l.find? id).isSome = true →
    (l₁ = l.claim id ∨ ∃ limit, l₁ = (l.wait id limit).1) → Course anytime l₁ l' →
    ∀ limit, l'.wait id limit = (l', some (.error (l'.lateAnswer id)))

/-- What a course keeps of a launcher. -/
structure Kept (maxParallel : Nat) (l : Launcher) : Prop where
  sound : l.Sound
  inLine : l.InLine maxParallel
  marshalled : l.Marshalled
  named : l.Named
  untold : l.Untold

theorem Kept.proceeds {passes : Launcher → Nat → Prop} (kept : l.Kept k)
    (proceeds : Proceeds passes l l') : l'.Kept k where
  sound := kept.sound.leads proceeds.leads
  inLine := proceeds.inLine kept.inLine
  marshalled := proceeds.marshalled kept.inLine kept.marshalled
  named := proceeds.named kept.sound.waits kept.named
  untold := proceeds.untold kept.sound kept.named kept.untold

theorem Course.kept {passes : Launcher → Nat → Prop} (course : Course passes l l')
    (kept : l.Kept k) : l'.Kept k := by
  induction course with
  | refl => exact kept
  | tail course proceeds ih => exact ih.proceeds proceeds

theorem kept_new (engine : Engine) {world : World} (blank : world.IsBlank) (maxParallel : Nat) :
    (new engine world maxParallel).Kept maxParallel where
  sound := sound_new engine world maxParallel
  inLine := InLine.inLine_new engine world maxParallel
  marshalled := Marshalled.marshalled_new engine world maxParallel
  named := Named.named_new engine world maxParallel
  untold id some_ _ r mem := blank.untold r mem id some_

/-- Nothing is logged for workflows that have not begun, if plugins log for the workflows they are
called for. -/
theorem Course.unlogged {passes : Launcher → Nat → Prop} (course : Course passes l l')
    (kept : l.Kept k) (keeps : l.Keeps) (unlogged : l.Unlogged) : l'.Unlogged := by
  suffices l'.Keeps ∧ l'.Unlogged from this.2
  induction course with
  | refl => exact ⟨keeps, unlogged⟩
  | tail course proceeds ih =>
    have kept := Course.kept course kept
    exact ⟨proceeds.keeps ih.1, proceeds.unlogged kept.sound kept.named ih.1 ih.2⟩

theorem unlogged_new {engine : Engine} {world : World} (blank : world.IsBlank) (maxParallel : Nat) :
    (new engine world maxParallel).Unlogged := by
  refine fun id _ => ⟨?_, fun r mem => blank.unlogged r mem id⟩
  rw [show (new engine world maxParallel).world.logs = [] from blank.logs]
  rfl

/-- Workflows are launched in good order, whatever is asked of a launcher and whatever the plugins
do. While a workflow is pending nothing is logged for it, if plugins log for the workflows that they
are called for. -/
theorem launches_in_order {engine : Engine} {world : World} {maxParallel : Nat}
    (blank : world.IsBlank) (course : Course anytime (new engine world maxParallel) l) :
    l.Orderly maxParallel ∧
      (engine.runtime.Silent → world.registry.Discreet → ∀ id, l.query id = .pending →
        l.world.logs.entries id = [] ∧ ∀ r ∈ l.world.history, ¬r.IsEntry id) := by
  have kept₀ := kept_new engine blank maxParallel
  obtain ⟨sound, inLine, marshalled, named, untold⟩ := Course.kept course kept₀
  refine ⟨?_, fun silent discreet id pending => ?_⟩
  · exact
      { bounded := (underWay_le sound).trans (inLine.line.permits ▸ Nat.le_add_right _ _)
        permits := inLine.line.permits
        ready := fun m n before workflow begun =>
          begun_or_ready inLine sound before begun workflow
        waited := fun n l' waits later begun =>
          Course.follows later marshalled inLine sound waits begun
        rested := fun rest n begun m before workflow => by
          refine (begun_or_ready inLine sound before begun workflow).resolve_right fun ready => ?_
          rw [queue_of_rest rest] at ready
          cases ready.2
        untold := fun id pending => by
          obtain ⟨unbegun, some_⟩ := unbegun_of_pending sound named pending
          exact untold id some_ unbegun
        breaks := fun n rest id e world reason held => ended_of_crash sound
        gives := fun l' n id e e' stepped there ended => by
          obtain ⟨free, next⟩ := permit_of_ended inLine sound stepped there ended
          refine ⟨free, fun m rest waiting => ?_⟩
          obtain ⟨left, ready⟩ := next m rest waiting
          have leads := (leads_step stepped).1
          exact ⟨left, begins_of_ready (inLine.step stepped) (sound.leads leads) ready⟩
        refuses := fun id source properties l' error => same_of_refused
        once := fun id l₁ l' known asked course limit => by
          obtain ⟨taken, sound₁⟩ := taken_of_asked sound known asked
          exact (taken.course sound₁ course).wait limit }
  · have keeps₀ := keeps_new maxParallel discreet silent blank.logs
    exact Course.unlogged course kept₀ keeps₀ (unlogged_new blank maxParallel) id
      (unbegun_of_pending sound named pending).1

/-! ### Launchers in which one workflow overtakes another, and one speaks for another -/

namespace Crowd

def plugin : Plugin where
  methods := [("pass", "pass"), ("slow", "slow"), ("gossip", "gossip")]
  invoke method _ :=
    if method = "slow" then .sleep 100 fun _ => .done (.ok none)
    else if method = "gossip" then
      .log "second" .info "any moment now" (.sleep 100 fun _ => .done (.ok none))
    else .done (.ok none)

def world : World := { registry := (Registry.empty.register "crowd" plugin).1 }

/-- Two workflows sleep, and a third waits. -/
def requests : List Request :=
  [.submit "first" (Duo.script "slow 'x'") [], .submit "second" (Duo.script "slow 'x'") [],
    .submit "third" (Duo.script "pass 'x'") [], .settle]

def asleep : Launcher := requests.foldl serve (new Execution.Duo.engine world 2)

/-- The two wake up, one behind the other. -/
def awake : Launcher :=
  let w := { asleep.world with clock := 100 }
  { asleep with world := w, tasks := asleep.tasks.map (wake asleep.engine w), queue := [0, 1] }

/-- A fourth workflow is submitted. -/
def launcher : Launcher := (awake.submit "fourth" (Duo.script "pass 'x'") []).1

theorem moveTo_asleep : asleep.moveTo 100 = awake := by
  have due : (sleepers 0 asleep.tasks).filter (fun s => s.1.due ≤ 100) =
      [(⟨100, 0⟩, 0), (⟨100, 2⟩, 1)] := by decide +kernel
  have idle : asleep.queue = [] := by decide +kernel
  have inOrder : [((⟨100, 0⟩ : Timer), 0), (⟨100, 2⟩, 1)].mergeSort (fun a b => a.1.before b.1) =
      [(⟨100, 0⟩, 0), (⟨100, 2⟩, 1)] := List.mergeSort_of_pairwise (by decide)
  unfold Launcher.moveTo
  rw [due, idle]
  dsimp only
  rw [inOrder]
  rfl

theorem course_launcher : Course anytime (new Execution.Duo.engine world 2) launcher := by
  have allNew : (new Execution.Duo.engine world 2).AllNew requests := by decide +kernel
  have slept : Course anytime (new Execution.Duo.engine world 2) asleep :=
    course_foldl_serve allNew
  have woke : Proceeds anytime asleep awake := moveTo_asleep ▸ .time 100 trivial
  have new : awake.IsNew "fourth" := by decide +kernel
  exact (slept.tail woke).tail (.submit "fourth" _ [] new)

/-- The first workflow logs for the second, which waits. -/
def gossip : List Request :=
  [.submit "first" (Duo.script "gossip 'x'") [], .submit "second" (Duo.script "pass 'x'") [],
    .settle]

theorem blank : world.IsBlank := ⟨nofun, nofun, rfl⟩

end Crowd

/-- Nothing is recorded for the third workflow while it waits, with two under way. -/
theorem Crowd.third_leaves_no_trace : Crowd.launcher.underWay ≤ 2 ∧
    Crowd.launcher.query "third" = .pending ∧
      ∀ r ∈ Crowd.launcher.world.history, ¬r.Carries "third" := by
  have orderly := (launches_in_order Crowd.blank Crowd.course_launcher).1
  have pending : Crowd.launcher.query "third" = .pending := by decide +kernel
  exact ⟨orderly.bounded, pending, orderly.untold "third" pending⟩

/-- The fourth workflow begins before the third, which has been given a permit and stands in the queue
behind it; and a plugin that speaks for others logs for a workflow that is pending. -/
theorem Crowd.fourth_begins_before_third :
    (∃ l, Course anytime (new Execution.Duo.engine Crowd.world 2) l ∧
      l.hasBegun 3 = true ∧ l.admission? 2 ≠ none ∧ l.hasBegun 2 = false) ∧
    ∃ l, Course anytime (new Execution.Duo.engine Crowd.world 1) l ∧
      l.query "second" = .pending ∧ l.world.logs.entries "second" ≠ [] := by
  refine ⟨⟨clockwork.settleWithin 20 Crowd.launcher,
    Crowd.course_launcher.trans (course_settleWithin 20), by decide +kernel⟩, ?_⟩
  have new : (new Execution.Duo.engine Crowd.world 1).AllNew Crowd.gossip := by decide +kernel
  exact ⟨_, course_foldl_serve new, by decide +kernel⟩

end Launcher

end PipelineRunner
