import PipelineRunner.Proofs.LauncherCourses

/-! Who begins before whom. Permits are had in the order of submission, but whoever has waited for one
goes to the end of the queue when it is given, and whoever finds a permit free when its turn comes
begins at once. So a workflow may begin before one that was submitted earlier, if the earlier one has
just been given its permit and stands in the queue; a workflow that has waited begins behind all that
were submitted before it. -/

namespace PipelineRunner

/-- Whether an execution has yet to begin. -/
def Execution.isFresh (e : Execution) : Bool :=
  match e.phase with
  | .fresh => true
  | _ => false

theorem Execution.isFresh_iff {e : Execution} : e.isFresh = true ↔ e.phase = .fresh := by
  unfold isFresh
  split
  next fresh => simp [fresh]
  next begun => simpa using begun

namespace Task

/-- Whether the workflow of a task has its permit and has yet to begin. -/
def isReady : Task → Bool
  | workflow _ .running e => e.isFresh
  | _ => false

/-- Whether the workflow of a task has begun. -/
def hasBegun : Task → Bool
  | workflow _ _ e => !e.isFresh
  | cleanup _ => false

variable {engine : Engine} {task : Task}

/-- Whoever waits has not begun, and whoever is through has. -/
theorem Fits.fresh {id : String} {a : Admission} {e : Execution}
    (fits : (workflow id a e).Fits engine) (unasked : a.rank < 2) : e.phase = .fresh := by
  cases fits with
  | arriving | waiting => rfl
  | _ => exact absurd unasked (by decide)

theorem Fits.begun {id : String} {e : Execution} (fits : (workflow id .over e).Fits engine) :
    e.phase ≠ .fresh := by
  rcases fits.ended with ⟨result, phase, -⟩ | ⟨reason, phase, -⟩ <;> simp [phase]

theorem Becomes.cleanup {c : Cleanup} (becomes : Becomes engine (cleanup c) task) :
    ∃ c', task = .cleanup c' := by
  induction becomes with
  | stays => exact ⟨c, rfl⟩
  | next becomes next ih =>
    obtain ⟨c', rfl⟩ := ih
    cases next
    exact ⟨_, rfl⟩

/-- Whoever has had its permit has begun or is ready to. -/
theorem Fits.hasBegun_or {id : String} {a : Admission} {e : Execution}
    (fits : (workflow id a e).Fits engine) (permitted : 2 ≤ a.rank) :
    (workflow id a e).hasBegun = true ∨ (workflow id a e).isReady = true := by
  cases fresh : e.isFresh with
  | false => exact .inl (by simp [hasBegun, fresh])
  | true =>
    cases a with
    | running => exact .inr fresh
    | arriving | waiting => exact absurd permitted (by decide)
    | _ => exact absurd (Execution.isFresh_iff.mp fresh) fits.begun

end Task

namespace Launcher

variable {l l' l'' : Launcher} {k m n : Nat} {id : String} {e : Execution} {task : Task}
  {rest : List Nat} {passes : Launcher → Nat → Prop}

def isReady (l : Launcher) (n : Nat) : Bool := l.tasks[n]?.any Task.isReady

def hasBegun (l : Launcher) (n : Nat) : Bool := l.tasks[n]?.any Task.hasBegun

theorem isReady_iff : l.isReady n = true ↔
    ∃ id e, l.tasks[n]? = some (.workflow id .running e) ∧ e.phase = .fresh := by
  unfold isReady
  constructor
  · intro ready
    obtain ⟨task, there, ready⟩ := (Option.any_eq_true ..).mp ready
    cases task with
    | cleanup => cases ready
    | workflow id a e =>
      cases a with
      | running => exact ⟨id, e, there, Execution.isFresh_iff.mp ready⟩
      | _ => cases ready
  · rintro ⟨id, e, there, fresh⟩
    rw [there]
    exact Execution.isFresh_iff.mpr fresh

theorem admission?_of_isReady (ready : l.isReady n = true) : l.admission? n = some .running := by
  obtain ⟨id, e, there, -⟩ := isReady_iff.mp ready
  exact admission?_of_task there

theorem isReady_congr (same : l'.tasks[n]? = l.tasks[n]?) : l'.isReady n = l.isReady n := by
  rw [isReady, isReady, same]

theorem isReady_setTask (inside : n < l.tasks.length) (new : Task) (m : Nat) :
    (l.setTask n new).isReady m = if n = m then new.isReady else l.isReady m := by
  unfold isReady setTask
  rw [List.getElem?_set]
  by_cases same : n = m
  · subst same
    simp [inside]
  · simp [same]

theorem tasks_setTask_ne (other : n ≠ m) (new : Task) :
    (l.setTask n new).tasks[m]? = l.tasks[m]? := by
  simp [setTask, other]

theorem isReady_moveTo (t n : Nat) : (l.moveTo t).isReady n = l.isReady n := by
  unfold isReady
  rw [InLine.getElem?_moveTo]
  cases l.tasks[n]? with
  | none => rfl
  | some task =>
    cases task with
    | cleanup c => rfl
    | workflow id a e =>
      obtain ⟨rota, woken⟩ := wake_workflow l.engine { l.world with clock := t } id a e
      rw [Option.map_some, woken]
      cases a <;> rfl

theorem tasks_after (there : l.tasks[n]? = some task) (id : String) (w : World) (e : Execution) :
    (l.after n id w e).tasks[n]? = some (.workflow id .running e) :=
  List.getElem?_set_self (List.getElem?_eq_some_iff.mp there).1

theorem not_ready_after {w' : World} {e' : Execution} (there : l.tasks[n]? = some task)
    (moved : e.step l.engine l.world = .moved w' e') (off : e'.rota.onTurn = false) :
    (l.after n id w' e').isReady n = false := by
  refine Bool.eq_false_iff.mpr fun ready => ?_
  obtain ⟨id, e, here, fresh⟩ := isReady_iff.mp ready
  cases (tasks_after there _ _ _).symm.trans here
  cases off.symm.trans (onTurn_of_step moved fresh)

/-- Whoever is ready was submitted before all that have no permit. -/
theorem Line.lt_of_isReady (line : l.Line k) (ready : l.isReady m = true)
    {a : Admission} (there : l.admission? n = some a) (unasked : a.rank < 2) : m < n := by
  have here := admission?_of_isReady ready
  rcases Nat.lt_trichotomy m n with before | rfl | behind
  · exact before
  · obtain rfl := Option.some.inj (here.symm.trans there)
    exact absurd unasked (by decide)
  · have ahead := line.ranks behind there here
    exact absurd unasked (Nat.not_lt.mpr ahead)

/-! ### The order in the queue -/

/-- Whoever is ready to begin stands in the queue once, and all of these but the first in the queue
stand there in the order of submission. Whoever waits for a permit does not stand there, or is the
first and has only just begun to wait. -/
structure Marshalled (l : Launcher) : Prop where
  once : (l.queue.filter l.isReady).Nodup
  sorted : (l.queue.tail.filter l.isReady).Pairwise (· < ·)
  absent : ∀ n ∈ l.queue.tail, l.admission? n ≠ some .waiting

namespace Marshalled

theorem of_same (marshalled : l.Marshalled) (queue : l'.queue = l.queue)
    (still : ∀ n ∈ l.queue, l'.tasks[n]? = l.tasks[n]?) : l'.Marshalled := by
  have ready (n : Nat) (mem : n ∈ l.queue) := isReady_congr (still n mem)
  refine ⟨?_, ?_, fun n mem => ?_⟩
  · rw [queue, List.filter_congr ready]
    exact marshalled.once
  · rw [queue, List.filter_congr fun n mem => ready n (List.mem_of_mem_tail mem)]
    exact marshalled.sorted
  · rw [queue] at mem
    rw [admission?_congr (still n (List.mem_of_mem_tail mem))]
    exact marshalled.absent n mem

theorem setHead (marshalled : l.Marshalled) (queue : l.queue = n :: rest)
    (inside : n < l.tasks.length) {new : Task}
    (ready : new.isReady = true → n ∈ rest → l.isReady n = true)
    (asked : ∀ id e, new = .workflow id .waiting e → n ∉ rest) :
    (l.setTask n new).Marshalled := by
  have kept (m : Nat) (mem : m ∈ rest) (now : (l.setTask n new).isReady m = true) :
      l.isReady m = true := by
    rw [isReady_setTask inside] at now
    split at now
    next same => exact same ▸ ready now (same ▸ mem)
    next => exact now
  have tail : ((l.setTask n new).queue.tail.filter (l.setTask n new).isReady).Sublist
      (l.queue.tail.filter l.isReady) := by
    change ((l.queue.tail).filter _).Sublist _
    rw [queue, List.tail_cons]
    have fewer : rest.filter (l.setTask n new).isReady =
        (rest.filter l.isReady).filter (l.setTask n new).isReady := by
      rw [List.filter_filter]
      refine List.filter_congr fun m mem => ?_
      cases now : (l.setTask n new).isReady m with
      | false => rfl
      | true => simp [kept m mem now]
    rw [fewer]
    exact List.filter_sublist
  have queue' : (l.setTask n new).queue = n :: rest := queue
  refine ⟨?_, marshalled.sorted.sublist tail, fun m mem => ?_⟩
  · have once := marshalled.once
    rw [queue'] at tail ⊢
    rw [queue] at once tail
    rw [List.tail_cons] at tail
    by_cases now : (l.setTask n new).isReady n = true
    · rw [List.filter_cons_of_pos now, List.nodup_cons]
      have later : (rest.filter l.isReady).Nodup := by
        refine once.sublist ?_
        exact (List.sublist_cons_self n rest).filter _
      refine ⟨fun mem => ?_, later.sublist tail⟩
      have mem := List.mem_of_mem_filter mem
      rw [isReady_setTask inside, if_pos rfl] at now
      rw [List.filter_cons_of_pos (ready now mem), List.nodup_cons] at once
      exact once.1 (List.mem_filter.mpr ⟨mem, ready now mem⟩)
    · rw [List.filter_cons_of_neg now]
      exact (once.sublist ((List.sublist_cons_self n rest).filter _)).sublist tail
  · rw [queue', List.tail_cons] at mem
    by_cases same : n = m
    · subst same
      intro waits
      have here : (l.setTask n new).tasks[n]? = some new := List.getElem?_set_self inside
      obtain ⟨id, e, there⟩ := admission?_eq_some.mp waits
      exact asked id e (Option.some.inj (here.symm.trans there)) mem
    · rw [admission?_congr (tasks_setTask_ne same new)]
      exact marshalled.absent m (by rw [queue, List.tail_cons]; exact mem)

/-- Somebody is put behind all others: somebody who need not begin, or who was submitted behind all
that are ready. -/
theorem push (marshalled : l.Marshalled) (queue : l.queue = n :: rest) (tasks : l'.tasks = l.tasks)
    (pushed : l'.queue = l.queue ++ [m]) (asked : l.admission? m ≠ some .waiting)
    (last : l.isReady m = true → m ∉ l.queue ∧ ∀ i ∈ rest, l.isReady i = true → i < m) :
    l'.Marshalled := by
  have same : l'.isReady = l.isReady := funext fun n => isReady_congr (by rw [tasks])
  have admission : l'.admission? = l.admission? :=
    funext fun n => admission?_congr (by rw [tasks])
  have tail : l'.queue.tail = rest ++ [m] := by rw [pushed, queue, List.cons_append, List.tail_cons]
  have sorted := marshalled.sorted
  rw [queue, List.tail_cons] at sorted
  refine ⟨?_, ?_, ?_⟩
  · rw [pushed, same, List.filter_append, List.nodup_append]
    refine ⟨marshalled.once, (List.nodup_singleton m).filter _, ?_⟩
    rintro i mem j hj rfl
    obtain ⟨hj, ready⟩ := List.mem_filter.mp hj
    obtain rfl := List.mem_singleton.mp hj
    exact (last ready).1 (List.mem_of_mem_filter mem)
  · rw [tail, same, List.filter_append]
    refine List.pairwise_append.mpr ⟨sorted, (List.pairwise_singleton _ _).filter _, ?_⟩
    intro i mem j hj
    obtain ⟨mem, before⟩ := List.mem_filter.mp mem
    obtain ⟨hj, ready⟩ := List.mem_filter.mp hj
    obtain rfl := List.mem_singleton.mp hj
    exact (last ready).2 i mem before
  · rw [tail, admission]
    intro i mem
    rcases List.mem_append.mp mem with mem | mem
    · exact marshalled.absent i (by rw [queue, List.tail_cons]; exact mem)
    · obtain rfl := List.mem_singleton.mp mem
      exact asked

/-- A permit that is given back. -/
theorem release (marshalled : l.Marshalled) (line : l.Line k) (queue : l.queue = n :: rest)
    (asked : l.admission? n ≠ some .waiting) : l.release.Marshalled := by
  unfold Launcher.release
  split
  next => exact marshalled.of_same rfl fun _ _ => rfl
  next w others waiting =>
    have waits := (line.waits w).mp (by simp [waiting])
    obtain ⟨id, e, there⟩ := admission?_eq_some.mp waits
    have inside := (List.getElem?_eq_some_iff.mp there).1
    have granted : l.grant w = l.setTask w (.workflow id .running e) := by rw [grant, there]
    rw [granted]
    have nowhere : w ∉ l.queue := by
      rw [queue, List.mem_cons]
      rintro (rfl | mem)
      · exact asked waits
      · exact marshalled.absent w (by rw [queue, List.tail_cons]; exact mem) waits
    have still (i : Nat) (mem : i ∈ l.queue) :
        (l.setTask w (.workflow id .running e)).tasks[i]? = l.tasks[i]? := by
      refine tasks_setTask_ne ?_ _
      rintro rfl
      exact nowhere mem
    have set : (l.setTask w (.workflow id .running e)).Marshalled := marshalled.of_same rfl still
    have queue' : (l.setTask w (.workflow id .running e)).queue = n :: rest := queue
    refine set.push (m := w) queue' rfl rfl ?_ fun _ => ⟨nowhere, ?_⟩
    · rw [admission?_setTask inside, if_pos rfl]
      simp
    · intro i mem now
      rw [isReady_congr (still i (by rw [queue]; exact List.mem_cons_of_mem _ mem))] at now
      exact line.lt_of_isReady now waits (by decide)

theorem spawnCleanups (marshalled : l.Marshalled) (queue : l.queue = n :: rest)
    (bounded : ∀ i ∈ l.queue, i < l.tasks.length) (held : List String) :
    (held.foldl spawnCleanup l).Marshalled := by
  induction held generalizing l rest with
  | nil => exact marshalled
  | cons container others ih =>
    -- The new task first, then its place in the queue.
    let added : Launcher := { l with tasks := l.tasks ++ [.cleanup { container }] }
    have grown : added.Marshalled :=
      marshalled.of_same rfl fun i mem => List.getElem?_append_left (bounded i mem)
    have here : added.tasks[l.tasks.length]? = some (.cleanup { container }) :=
      List.getElem?_concat_length
    have spawned : (l.spawnCleanup container).Marshalled := by
      refine grown.push (m := l.tasks.length) queue rfl rfl ?_ fun now => ?_
      · simp [admission?, here]
      · simp [Launcher.isReady, here, Task.isReady] at now
    have queue' : (l.spawnCleanup container).queue = n :: (rest ++ [l.tasks.length]) := by
      simp [spawnCleanup, queue]
    refine ih spawned queue' fun i mem => ?_
    have mem : i ∈ l.queue ++ [l.tasks.length] := mem
    rw [show (l.spawnCleanup container).tasks.length = l.tasks.length + 1 from by
      simp [spawnCleanup]]
    rcases List.mem_append.mp mem with mem | mem
    · exact Nat.lt_succ_of_lt (bounded i mem)
    · rw [List.mem_singleton.mp mem]
      exact Nat.lt_succ_self _

theorem turn (marshalled : l.Marshalled) (inLine : l.InLine k) (queue : l.queue = n :: rest)
    (had : l.turn n = some l') : l'.Marshalled := by
  unfold Launcher.turn at had
  split at had
  next id e there =>
    cases had
    have inside := (List.getElem?_eq_some_iff.mp there).1
    have here := admission?_of_task there
    have alone : n ∉ rest := by
      intro mem
      have order := inLine.queued.inOrder
      rw [queue, List.filter_cons_of_pos (by simpa using here), List.pairwise_cons] at order
      exact Nat.lt_irrefl n (order.1 n (List.mem_filter.mpr ⟨mem, by simpa using here⟩))
    unfold arrive
    split
    · have set : (l.setTask n (.workflow id .waiting e)).Marshalled := by
        refine marshalled.setHead queue inside (fun ready => ?_) fun _ _ _ => alone
        cases ready
      exact set.of_same rfl fun _ _ => rfl
    · have set : (l.setTask n (.workflow id .running e)).Marshalled := by
        refine marshalled.setHead queue inside (fun _ mem => absurd mem alone) fun _ _ waits => ?_
        cases waits
      exact set.of_same rfl fun _ _ => rfl
  next id e there =>
    have inside := (List.getElem?_eq_some_iff.mp there).1
    obtain ⟨k, rfl⟩ := inLine.line.exists_running there
    have left (e' : Execution) : (l.setTask n (.workflow id .over e')).Marshalled := by
      refine marshalled.setHead queue inside (fun ready => ?_) fun _ _ waits => ?_
      · cases ready
      · cases waits
    have leftLine (e' : Execution) := inLine.line.leave there e'
    have through (l' : Launcher) (e' : Execution)
        (here : l'.tasks[n]? = some (.workflow id .over e')) : l'.admission? n ≠ some .waiting := by
      simp [admission?, here]
    split at had
    next result ended =>
      cases had
      obtain ⟨world, closed⟩ := @close_eq l n id e result
      rw [closed]
      let l₁ := Launcher.setTask { l with world } n
        (.workflow id .over { e with state := (e.state.advance .done).1 })
      have line : l₁.Line k := (leftLine _).of_same rfl rfl rfl fun _ => rfl
      have set : l₁.Marshalled := (left _).of_same rfl fun _ _ => rfl
      exact set.release line queue (through _ _ (List.getElem?_set_self inside))
    next =>
      split at had
      next w' e' moved =>
        cases had
        have set : (l.setTask n (.workflow id .running e')).Marshalled := by
          refine marshalled.setHead queue inside (fun ready _ => ?_) fun _ _ waits => ?_
          · have fresh := fresh_of_step moved (Execution.isFresh_iff.mp ready)
            exact isReady_iff.mpr ⟨id, e, there, fresh⟩
          · cases waits
        exact set.of_same rfl fun _ _ => rfl
      next w reason held crashed =>
        cases had
        let l₁ := Launcher.setTask { l with world := w } n
          (.workflow id .over { e with phase := .crashed reason })
        have set : l₁.Marshalled := (left _).of_same rfl fun _ _ => rfl
        have line : l₁.Line k := (leftLine _).of_same rfl rfl rfl fun _ => rfl
        obtain ⟨more, grown⟩ := @InLine.foldl_spawnCleanup_queue l₁ held
        have bounded : ∀ i ∈ l₁.queue, i < l₁.tasks.length := by
          simpa [l₁, Launcher.setTask] using inLine.queued.bounded
        have head : (held.foldl spawnCleanup l₁).queue = n :: (rest ++ more) := by
          rw [grown, show l₁.queue = n :: rest from queue, List.cons_append]
        have here : l₁.tasks[n]? = some (.workflow id .over { e with phase := .crashed reason }) :=
          List.getElem?_set_self inside
        obtain ⟨-, -, -, tasks⟩ := foldl_spawnCleanup (l := l₁) held
        refine (set.spawnCleanups queue bounded held).release (line.spawnCleanups held) head
          (through _ { e with phase := .crashed reason } ?_)
        rw [tasks, List.getElem?_append_left (List.getElem?_eq_some_iff.mp here).1, here]
      next => cases had
  next c there =>
    obtain ⟨⟨w, c'⟩, -, rfl⟩ := Option.map_eq_some_iff.mp had
    have inside := (List.getElem?_eq_some_iff.mp there).1
    have set : (l.setTask n (.cleanup c')).Marshalled := by
      refine marshalled.setHead queue inside (fun ready => ?_) fun _ _ waits => ?_
      · cases ready
      · cases waits
    exact set.of_same rfl fun _ _ => rfl
  next => cases had

/-- The first leaves the queue, or goes to its end if it has begun. -/
theorem pass (marshalled : l.Marshalled) (queue : l.queue = n :: rest) {again : List Nat}
    (begun : ∀ m ∈ again, l.isReady m = false ∧ l.admission? m ≠ some .waiting) :
    ({ l with queue := rest ++ again } : Launcher).Marshalled := by
  have fewer (m : List Nat) : (m ++ again).filter l.isReady = m.filter l.isReady := by
    have none_ : again.filter l.isReady = [] :=
      List.filter_eq_nil_iff.mpr fun m mem => by simp [(begun m mem).1]
    rw [List.filter_append, none_, List.append_nil]
  have shorter : (rest ++ again).tail.Sublist (rest ++ again) := List.tail_sublist _
  have once := marshalled.once
  have sorted := marshalled.sorted
  have absent := marshalled.absent
  rw [queue] at once sorted absent
  refine ⟨?_, ?_, fun m mem => ?_⟩
  · change ((rest ++ again).filter l.isReady).Nodup
    rw [fewer]
    exact once.sublist ((List.sublist_cons_self n rest).filter _)
  · change ((rest ++ again).tail.filter l.isReady).Pairwise _
    refine List.Pairwise.sublist (shorter.filter _) ?_
    rw [fewer]
    exact sorted
  · rcases List.mem_append.mp (List.mem_of_mem_tail mem) with mem | mem
    · exact absent m mem
    · exact (begun m mem).2

theorem step (marshalled : l.Marshalled) (inLine : l.InLine k) (stepped : l.step = some l') :
    l'.Marshalled := by
  cases step_cases inLine.line.inWaiting stepped with
  | @passes n rest queue stuck =>
    have passed : ({ l with queue := rest ++ [] } : Launcher).Marshalled :=
      marshalled.pass queue nofun
    simpa using passed
  | turns queue had => exact marshalled.turn inLine queue had
  | @yields n rest id e e' w' queue there moved off called had =>
    refine (marshalled.turn inLine queue had).pass queue fun m mem => ?_
    obtain rfl := List.mem_singleton.mp mem
    refine ⟨not_ready_after there moved off, ?_⟩
    simp [admission?, tasks_after there]

theorem moveTo (marshalled : l.Marshalled) (t : Nat) : (l.moveTo t).Marshalled := by
  obtain ⟨woken, queue, sleeps⟩ := @InLine.exists_woken l t
  have ready := @isReady_moveTo l t
  have begun (n : Nat) (mem : n ∈ woken) :
      l.isReady n = false ∧ l.admission? n ≠ some .waiting := by
    obtain ⟨task, there, slept⟩ := sleeps n mem
    refine ⟨Bool.eq_false_iff.mpr fun ready => slept ?_, fun waits => slept ?_⟩
    · obtain ⟨id, e, here, fresh⟩ := isReady_iff.mp ready
      cases there.symm.trans here
      simp [timersOf, Execution.timers, fresh]
    · obtain ⟨id, e, here⟩ := admission?_eq_some.mp waits
      cases there.symm.trans here
      rfl
  have others : woken.filter l.isReady = [] :=
    List.filter_eq_nil_iff.mpr fun n mem => by simp [(begun n mem).1]
  have tail : ∃ behind, (l.moveTo t).queue.tail = l.queue.tail ++ behind ∧ behind ⊆ woken := by
    rw [queue]
    cases l.queue with
    | nil => exact ⟨woken.tail, rfl, fun n => List.mem_of_mem_tail⟩
    | cons n rest => exact ⟨woken, rfl, fun n => id⟩
  obtain ⟨behind, tail, inside⟩ := tail
  have behind_others : behind.filter l.isReady = [] :=
    List.filter_eq_nil_iff.mpr fun n mem => by simp [(begun n (inside mem)).1]
  refine ⟨?_, ?_, fun n mem => ?_⟩
  · rw [queue, funext ready, List.filter_append, others, List.append_nil]
    exact marshalled.once
  · rw [tail, funext ready, List.filter_append, behind_others, List.append_nil]
    exact marshalled.sorted
  · rw [InLine.admission?_moveTo]
    rw [tail, List.mem_append] at mem
    exact mem.elim (marshalled.absent n) fun mem => (begun n (inside mem)).2

theorem submit (marshalled : l.Marshalled) (queued : l.Queued) (id source : String)
    (properties : Properties) : (l.submit id source properties).1.Marshalled := by
  cases parsed : Script.parse source with
  | error error =>
    rw [submit_error properties parsed]
    exact marshalled
  | ok pipeline =>
    rw [submit_ok properties parsed]
    let added : Launcher := { l with tasks := l.tasks ++ [.workflow id .arriving
      { pipeline, properties := OrderedMap.insert workflowKey (.string id) properties }] }
    have grown : added.Marshalled :=
      marshalled.of_same rfl fun n mem => List.getElem?_append_left (queued.bounded n mem)
    have here : added.tasks[l.tasks.length]? = some _ := List.getElem?_concat_length
    have last : added.isReady l.tasks.length = false ∧
        added.admission? l.tasks.length ≠ some .waiting := by
      simp [Launcher.isReady, admission?, here, Task.isReady]
    have pushed : ({ added with queue := l.queue ++ [l.tasks.length] } : Launcher).Marshalled := by
      cases queue : l.queue with
      | nil =>
        refine ⟨(List.nodup_singleton _).filter _, List.Pairwise.nil, fun _ mem => ?_⟩
        cases mem
      | cons n rest =>
        refine grown.push queue rfl (by rw [← queue]) last.2 fun ready => ?_
        rw [last.1] at ready
        cases ready
    exact pushed.of_same rfl fun _ _ => rfl

theorem marshalled_new (engine : Engine) (world : World) (maxParallel : Nat) :
    (new engine world maxParallel).Marshalled :=
  ⟨.nil, .nil, nofun⟩

end Marshalled

theorem Proceeds.marshalled (proceeds : Proceeds passes l l') (inLine : l.InLine k)
    (marshalled : l.Marshalled) : l'.Marshalled := by
  cases proceeds with
  | step stepped => exact marshalled.step inLine stepped
  | time t => exact marshalled.moveTo t
  | submit id source properties => exact marshalled.submit inLine.queued id source properties
  | claim | take => exact marshalled.of_same rfl fun _ _ => rfl
  | remove id =>
    obtain ⟨workflows, logs, removed⟩ := @remove_still l id
    rw [removed]
    exact marshalled.of_same rfl fun _ _ => rfl

theorem Course.marshalled (course : Course passes l l') (inLine : l.InLine k)
    (marshalled : l.Marshalled) : l'.Marshalled := by
  induction course with
  | refl => exact marshalled
  | tail course proceeds ih => exact proceeds.marshalled (Course.inLine course inLine) ih

/-! ### Who has begun -/

/-- Who has begun has done so for good. -/
theorem hasBegun_of_next {engine : Engine} {task' : Task} (next : task.Next engine task')
    (begun : task.hasBegun = true) : task'.hasBegun = true := by
  cases next with
  | waits | enters | granted => exact begun
  | closes => exact begun
  | breaks => rfl
  | cleans => cases begun
  | wakes id e w =>
    obtain ⟨rota, woken⟩ := @Execution.wake_eq engine e w
    rw [woken]
    exact begun
  | @goes e e' w w' id moved =>
    simp only [Task.hasBegun, Bool.not_eq_true', ← Bool.not_eq_true, Execution.isFresh_iff] at begun ⊢
    exact fun fresh => begun (fresh_of_step moved fresh)

theorem hasBegun_of_becomes {engine : Engine} {task' : Task} (becomes : task.Becomes engine task')
    (begun : task.hasBegun = true) : task'.hasBegun = true := by
  induction becomes with
  | stays => exact begun
  | next becomes next ih => exact hasBegun_of_next next ih

theorem Evolves.hasBegun (evolves : Evolves l l') (begun : l.hasBegun n = true) :
    l'.hasBegun n = true := by
  obtain ⟨task, there, begun⟩ := (Option.any_eq_true ..).mp begun
  obtain ⟨task', there', becomes⟩ := evolves.tasks n task there
  exact (Option.any_eq_true ..).mpr ⟨task', there', hasBegun_of_becomes becomes begun⟩

theorem Evolves.admission?_eq_none (evolves : Evolves l l') (inside : n < l.tasks.length)
    (none_ : l.admission? n = none) : l'.admission? n = none := by
  have there : l.tasks[n]? = some l.tasks[n] := List.getElem?_eq_getElem inside
  obtain ⟨task', there', becomes⟩ := evolves.tasks n _ there
  cases here : l.tasks[n] with
  | workflow id a e =>
    rw [here] at there
    cases none_.symm.trans (admission?_of_task there)
  | cleanup c =>
    rw [here] at becomes
    obtain ⟨c', rfl⟩ := becomes.cleanup
    rw [admission?, there']

/-- All workflows that were submitted before have begun. -/
def Follows (l : Launcher) (n : Nat) : Prop :=
  ∀ m < n, l.admission? m ≠ none → l.hasBegun m = true

theorem Follows.later (follows : l.Follows n) (evolves : Evolves l l')
    (inside : n < l.tasks.length) : l'.Follows n := fun m before workflow =>
  evolves.hasBegun <| follows m before fun none_ =>
    workflow (evolves.admission?_eq_none (Nat.lt_trans before inside) none_)

/-- The workflow of a task waits for a permit, or it is ready and not the first in the queue, or all
that were submitted before it have begun. -/
def Patient (l : Launcher) (n : Nat) : Prop :=
  l.admission? n = some .waiting ∨ l.isReady n = true ∧ n ∈ l.queue.tail ∨ l.Follows n

/-- Who comes to be the first in the queue follows all that were submitted before. -/
theorem Marshalled.follows (marshalled : l.Marshalled) (inLine : l.InLine k) (sound : l.Sound)
    (queue : l.queue = m :: n :: rest) (begun : l.isReady m = false) (ready : l.isReady n = true) :
    l.Follows n := by
  intro i before workflow
  obtain ⟨a, there⟩ := Option.ne_none_iff_exists'.mp workflow
  have permitted := inLine.line.ranks before there (admission?_of_isReady ready)
  obtain ⟨id, e, there⟩ := admission?_eq_some.mp there
  rcases (sound.fits i _ there).hasBegun_or permitted with begun' | ready'
  · exact (Option.any_eq_true ..).mpr ⟨_, there, begun'⟩
  -- Nobody who is ready and was submitted before stands behind.
  have ready' : l.isReady i = true := (Option.any_eq_true ..).mpr ⟨_, there, ready'⟩
  obtain ⟨id', e', there', fresh⟩ := isReady_iff.mp ready'
  have mem := (inLine.queued.ready there' (by simp) fresh).2 rfl
  have sorted := marshalled.sorted
  rw [queue, List.tail_cons, List.filter_cons_of_pos ready, List.pairwise_cons] at sorted
  rw [queue, List.mem_cons, List.mem_cons] at mem
  rcases mem with rfl | rfl | mem
  · cases begun.symm.trans ready'
  · exact absurd before (Nat.lt_irrefl _)
  · exact absurd before (Nat.lt_asymm (sorted.1 i (List.mem_filter.mpr ⟨mem, ready'⟩)))

namespace Patient

theorem of_same (patient : l.Patient n) (tasks : l'.tasks = l.tasks)
    (queue : l'.queue = l.queue) : l'.Patient n := by
  have admission (i : Nat) : l'.admission? i = l.admission? i := admission?_congr (by rw [tasks])
  have begun (i : Nat) : l'.hasBegun i = l.hasBegun i := by rw [hasBegun, hasBegun, tasks]
  rcases patient with waits | ⟨ready, mem⟩ | follows
  · exact .inl ((admission n).trans waits)
  · exact .inr (.inl ⟨(isReady_congr (by rw [tasks])).trans ready, by rw [queue]; exact mem⟩)
  · refine .inr (.inr fun i before workflow => ?_)
    rw [begun]
    exact follows i before (admission i ▸ workflow)

/-- The first leaves the queue, or goes to its end. -/
theorem pass (patient : l.Patient n) (marshalled : l.Marshalled) (inLine : l.InLine k)
    (sound : l.Sound) (queue : l.queue = m :: rest) (begun : l.isReady m = false)
    (again : List Nat) : ({ l with queue := rest ++ again } : Launcher).Patient n := by
  rcases patient with waits | ⟨ready, mem⟩ | follows
  · exact .inl waits
  · rw [queue, List.tail_cons] at mem
    cases rest with
    | nil => cases mem
    | cons i rest =>
      rcases List.mem_cons.mp mem with rfl | mem
      · exact .inr (.inr (marshalled.follows inLine sound queue begun ready))
      · exact .inr (.inl ⟨ready, List.mem_append_left _ mem⟩)
  · exact .inr (.inr follows)

theorem turn (patient : l.Patient n) (marshalled : l.Marshalled) (inLine : l.InLine k)
    (sound : l.Sound) (inside : n < l.tasks.length) (queue : l.queue = m :: rest)
    (had : l.turn m = some l') : l'.Patient n := by
  obtain ⟨inLine', more, grown⟩ := inLine.turn queue had
  have evolves := (evolves_turn sound.waits had).1
  obtain ⟨task, task', behind, there, does, granted⟩ := turn_cases sound.waits had
  have tail : l'.queue.tail = rest ++ more := by rw [grown, queue, List.cons_append, List.tail_cons]
  rcases patient with waits | ⟨ready, mem⟩ | follows
  · have other : m ≠ n := by
      rintro rfl
      obtain ⟨id, e, here⟩ := admission?_eq_some.mp waits
      cases there.symm.trans here
      cases does
    obtain ⟨id, e, here⟩ := admission?_eq_some.mp waits
    obtain ⟨new, now, granted⟩ := tasks_forward granted here
    rw [if_neg other] at granted
    cases granted with
    | same => exact .inl (admission?_of_task now)
    | granted =>
      have fresh := (sound.fits n _ here).fresh (by decide)
      have mem := (inLine'.queued.ready now (by simp) fresh).2 rfl
      rw [grown, queue, List.cons_append, List.mem_cons] at mem
      refine .inr (.inl ⟨isReady_iff.mpr ⟨id, e, now, fresh⟩, ?_⟩)
      rw [tail]
      exact mem.resolve_left (Ne.symm other)
  · rw [queue, List.tail_cons] at mem
    have other : m ≠ n := by
      rintro rfl
      have once := marshalled.once
      rw [queue, List.filter_cons_of_pos ready, List.nodup_cons] at once
      exact once.1 (List.mem_filter.mpr ⟨mem, ready⟩)
    obtain ⟨id, e, here, fresh⟩ := isReady_iff.mp ready
    obtain ⟨new, now, granted⟩ := tasks_forward granted here
    rw [if_neg other] at granted
    cases granted
    refine .inr (.inl ⟨isReady_iff.mpr ⟨id, e, now, fresh⟩, ?_⟩)
    rw [tail]
    exact List.mem_append_left _ mem
  · exact .inr (.inr (follows.later evolves inside))

theorem step (patient : l.Patient n) (marshalled : l.Marshalled) (inLine : l.InLine k)
    (sound : l.Sound) (inside : n < l.tasks.length) (stepped : l.step = some l') :
    l'.Patient n := by
  cases step_cases sound.waits stepped with
  | @passes m rest queue stuck =>
    have begun : l.isReady m = false := by
      refine Bool.eq_false_iff.mpr fun ready => ?_
      obtain ⟨id, e, there, fresh⟩ := isReady_iff.mp ready
      exact (inLine.passed_over stuck).2 id e there fresh
    have passed := patient.pass marshalled inLine sound queue begun []
    rwa [List.append_nil] at passed
  | turns queue had => exact patient.turn marshalled inLine sound inside queue had
  | @yields m rest id e e' w' queue there moved off called had =>
    have goes : Goes l (l.after m id w' e') := .turn had
    refine (patient.turn marshalled inLine sound inside queue had).pass
      (marshalled.turn inLine queue had) (inLine.turn queue had).1 (sound.goes goes) queue ?_ [m]
    exact not_ready_after there moved off

theorem moveTo (patient : l.Patient n) (sound : l.Sound) (inside : n < l.tasks.length) (t : Nat) :
    (l.moveTo t).Patient n := by
  rcases patient with waits | ⟨ready, mem⟩ | follows
  · exact .inl ((InLine.admission?_moveTo t n).trans waits)
  · refine .inr (.inl ⟨(isReady_moveTo t n).trans ready, ?_⟩)
    obtain ⟨woken, queue, -⟩ := @InLine.exists_woken l t
    rw [queue]
    cases first : l.queue with
    | nil => simp [first] at mem
    | cons m rest =>
      rw [first] at mem
      exact List.mem_append_left _ mem
  · exact .inr (.inr (follows.later (evolves_moveTo sound.waits t).1 inside))

theorem submit (patient : l.Patient n) (sound : l.Sound) (inside : n < l.tasks.length)
    (id source : String) (properties : Properties) :
    (l.submit id source properties).1.Patient n := by
  have evolves := (evolves_submit sound.waits id source properties).1
  rcases patient with waits | ⟨ready, mem⟩ | follows
  · left
    obtain ⟨id', e, there⟩ := admission?_eq_some.mp waits
    cases parsed : Script.parse source with
    | error error => rwa [submit_error properties parsed]
    | ok pipeline =>
      rw [submit_ok properties parsed]
      exact (admission?_congr (List.getElem?_append_left inside)).trans waits
  · right; left
    cases parsed : Script.parse source with
    | error error => rw [submit_error properties parsed]; exact ⟨ready, mem⟩
    | ok pipeline =>
      rw [submit_ok properties parsed]
      refine ⟨(isReady_congr (List.getElem?_append_left inside)).trans ready, ?_⟩
      cases first : l.queue with
      | nil => simp [first] at mem
      | cons m rest =>
        rw [first] at mem
        exact List.mem_append_left _ mem
  · exact .inr (.inr (follows.later evolves inside))

end Patient

theorem Proceeds.patient (proceeds : Proceeds passes l l') (marshalled : l.Marshalled)
    (inLine : l.InLine k) (sound : l.Sound) (inside : n < l.tasks.length) (patient : l.Patient n) :
    l'.Patient n := by
  cases proceeds with
  | step stepped => exact patient.step marshalled inLine sound inside stepped
  | time t => exact patient.moveTo sound inside t
  | submit id source properties => exact patient.submit sound inside id source properties
  | claim | take => exact patient.of_same rfl rfl
  | remove id =>
    obtain ⟨workflows, logs, removed⟩ := @remove_still l id
    rw [removed]
    exact patient.of_same rfl rfl

/-- Who has waited for a permit begins behind all that were submitted before. -/
theorem Course.follows (course : Course passes l l') (marshalled : l.Marshalled)
    (inLine : l.InLine k) (sound : l.Sound) (waits : l.admission? n = some .waiting)
    (begun : l'.hasBegun n = true) : l'.Follows n := by
  have inside {l₁ : Launcher} (so : Course passes l l₁) : n < l₁.tasks.length := by
    obtain ⟨id, e, there⟩ := admission?_eq_some.mp waits
    obtain ⟨task, there, -⟩ := ((Course.leads so).evolves sound).tasks n _ there
    exact (List.getElem?_eq_some_iff.mp there).1
  have patient : l'.Patient n := by
    clear begun
    induction course with
    | refl => exact .inl waits
    | tail so proceeds ih =>
      exact proceeds.patient (Course.marshalled so inLine marshalled) (Course.inLine so inLine)
        (sound.leads (Course.leads so)) (inside so) ih
  rcases patient with waits | ⟨ready, -⟩ | follows
  · obtain ⟨id, e, there⟩ := admission?_eq_some.mp waits
    have fresh := ((sound.leads (Course.leads course)).fits n _ there).fresh (by decide)
    simp [hasBegun, there, Task.hasBegun, Execution.isFresh_iff.mpr fresh] at begun
  · obtain ⟨id, e, there, fresh⟩ := isReady_iff.mp ready
    simp [hasBegun, there, Task.hasBegun, Execution.isFresh_iff.mpr fresh] at begun
  · exact follows

end Launcher

end PipelineRunner
