import PipelineRunner.Proofs.LogKeeping

/-! Who has a permit of a launcher, and who waits for one. Permits are neither made nor lost: those
that nobody has, with those that workflows have, are as many as at the beginning. A permit that is
given back goes to whoever waits longest, and whoever waits was submitted before all who have not
asked for a permit yet; so permits are had in the order of submission. A workflow with a permit
stands in the queue until it has begun. -/

namespace PipelineRunner

/-- How far a workflow has come with its permit: it has not asked for it, waits for it, or has had
it. -/
def Admission.rank : Admission → Nat
  | .arriving => 0
  | .waiting => 1
  | .running => 2
  | .over => 2

/-- Whether a task has a permit. -/
def Task.isRunning : Task → Bool
  | .workflow _ .running _ => true
  | _ => false

/-- An execution has the turn, or wants it. -/
def Execution.IsCalled (e : Execution) : Prop := e.rota.onTurn = true ∨ e.rota.called = true

namespace Launcher

variable {l l' : Launcher} {k m n : Nat} {id : String} {e : Execution} {task : Task}

/-- Where the workflow of a task stands with the launcher. -/
def admission? (l : Launcher) (n : Nat) : Option Admission :=
  match l.tasks[n]? with
  | some (.workflow _ a _) => some a
  | _ => none

/-- How many workflows have a permit. -/
def running (l : Launcher) : Nat := l.tasks.countP Task.isRunning

theorem admission?_of_task {a : Admission} (there : l.tasks[n]? = some (.workflow id a e)) :
    l.admission? n = some a := by
  rw [admission?, there]

theorem admission?_eq_some {a : Admission} :
    l.admission? n = some a ↔ ∃ id e, l.tasks[n]? = some (.workflow id a e) := by
  unfold admission?
  constructor
  · intro h
    split at h
    next id b e there => exact ⟨id, e, by rw [there, Option.some.inj h]⟩
    next => cases h
  · rintro ⟨id, e, there⟩
    rw [there]

theorem admission?_congr (same : l'.tasks[n]? = l.tasks[n]?) : l'.admission? n = l.admission? n := by
  rw [admission?, admission?, same]

theorem admission?_setTask (inside : n < l.tasks.length) (id : String) (a : Admission)
    (e : Execution) (m : Nat) : (l.setTask n (.workflow id a e)).admission? m =
      if n = m then some a else l.admission? m := by
  unfold admission?
  rw [setTask, List.getElem?_set]
  by_cases same : n = m
  · simp [same, same ▸ inside]
  · simp [same]

theorem admission?_setCleanup {c : Cleanup} (there : l.tasks[n]? = some (.cleanup c))
    (c' : Cleanup) (m : Nat) : (l.setTask n (.cleanup c')).admission? m = l.admission? m := by
  unfold admission?
  rw [setTask, List.getElem?_set]
  by_cases same : n = m
  · rw [if_pos same, if_pos (List.getElem?_eq_some_iff.mp there).1, ← same, there]
  · rw [if_neg same]

/-- Whoever is put in the place of a task, the others keep their permits. -/
theorem running_setTask (there : l.tasks[n]? = some task) (new : Task) :
    (l.setTask n new).running + task.isRunning.toNat = l.running + new.isRunning.toNat := by
  obtain ⟨inside, rfl⟩ := List.getElem?_eq_some_iff.mp there
  have has : l.tasks[n].isRunning = true → 0 < l.tasks.countP Task.isRunning := fun h =>
    List.countP_pos_iff.mpr ⟨_, List.getElem_mem inside, h⟩
  have count := List.countP_set (p := Task.isRunning) (a := new) inside
  unfold running setTask
  dsimp only
  rw [count]
  cases h : l.tasks[n].isRunning <;> cases new.isRunning <;> simp
  all_goals have := has h; omega

/-! ### The line -/

/-- Permits are had in the order of submission: `k` of them in all, none of which is free while
somebody waits. -/
structure Line (k : Nat) (l : Launcher) : Prop where
  permits : l.running + l.free = k
  busy : l.waiting ≠ [] → l.free = 0
  waits : ∀ n, n ∈ l.waiting ↔ l.admission? n = some .waiting
  sorted : l.waiting.Pairwise (· < ·)
  ranks : ∀ {m n a b}, m < n → l.admission? m = some a → l.admission? n = some b → b.rank ≤ a.rank

namespace Line

/-- What the line tells is told by where the tasks stand. -/
theorem of_same (line : l.Line k) (free : l'.free = l.free) (waiting : l'.waiting = l.waiting)
    (running : l'.running = l.running) (same : ∀ n, l'.admission? n = l.admission? n) :
    l'.Line k where
  permits := by rw [running, free, line.permits]
  busy := by rw [waiting, free]; exact line.busy
  waits n := by rw [waiting, same, line.waits]
  sorted := by rw [waiting]; exact line.sorted
  ranks before hm hn := by
    rw [same] at hm hn
    exact line.ranks before hm hn

/-- A task may come further in the line if those before it are as far. -/
theorem ranks_setTask (line : l.Line k) {a : Admission}
    (there : l.tasks[n]? = some (.workflow id a e)) {b : Admission} {e' : Execution}
    (further : a.rank ≤ b.rank)
    (earlier : ∀ m c, m < n → l.admission? m = some c → b.rank ≤ c.rank) {i j : Nat}
    {x y : Admission} (before : i < j)
    (hi : (l.setTask n (.workflow id b e')).admission? i = some x)
    (hj : (l.setTask n (.workflow id b e')).admission? j = some y) : y.rank ≤ x.rank := by
  have inside := (List.getElem?_eq_some_iff.mp there).1
  rw [admission?_setTask inside] at hi hj
  split at hj
  next same =>
    obtain rfl := Option.some.inj hj
    rw [if_neg (by omega)] at hi
    exact earlier i x (by omega) hi
  next =>
    split at hi
    next same =>
      obtain rfl := Option.some.inj hi
      have behind := line.ranks before (same ▸ admission?_of_task there) hj
      exact Nat.le_trans behind further
    next => exact line.ranks before hi hj

/-- Who asks for a permit, first of all who have not asked yet, has it now or is the last to wait. -/
theorem arrive (line : l.Line k) (there : l.tasks[n]? = some (.workflow id .arriving e))
    (first : ∀ m, l.admission? m = some .arriving → n ≤ m) : (l.arrive n id e).Line k := by
  have inside := (List.getElem?_eq_some_iff.mp there).1
  have here := admission?_of_task there
  have asked (m : Nat) (c : Admission) (before : m < n) (hm : l.admission? m = some c) :
      c ≠ .arriving := by
    rintro rfl
    exact absurd (first m hm) (by omega)
  unfold Launcher.arrive
  split
  next none_free =>
    have count := running_setTask there (.workflow id .waiting e)
    refine ⟨?_, fun _ => none_free, fun m => ?_, ?_, fun before hi hj => ?_⟩
    · have : l.running + l.free = k := line.permits
      simp only [Task.isRunning, Bool.toNat_false] at count
      change (l.setTask n (.workflow id .waiting e)).running + l.free = k
      omega
    · change m ∈ l.waiting ++ [n] ↔ (l.setTask n (.workflow id .waiting e)).admission? m = _
      rw [admission?_setTask inside, List.mem_append, line.waits, List.mem_singleton]
      split
      next same => simp [same]
      next other => simp [Ne.symm other]
    · refine List.pairwise_append.mpr ⟨line.sorted, List.pairwise_singleton _ _, ?_⟩
      intro m waits n' mem
      obtain rfl := List.mem_singleton.mp mem
      -- Nobody behind somebody who has not asked waits.
      by_contra behind
      have waits := (line.waits m).mp waits
      rcases Nat.lt_or_eq_of_le (Nat.not_lt.mp behind) with before | rfl
      · exact absurd (line.ranks before here waits) (by decide)
      · cases here.symm.trans waits
    · refine line.ranks_setTask there (by decide) (fun m c before hm => ?_) before hi hj
      cases c with
      | arriving => exact absurd rfl (asked m _ before hm)
      | _ => decide
  next some_free =>
    have empty : l.waiting = [] := by
      by_contra waits
      exact some_free (line.busy waits)
    have count := running_setTask there (.workflow id .running e)
    refine ⟨?_, fun waits => absurd empty waits, fun m => ?_, ?_, fun before hi hj => ?_⟩
    · have : l.running + l.free = k := line.permits
      simp only [Task.isRunning, Bool.toNat_false, Bool.toNat_true] at count
      change (l.setTask n (.workflow id .running e)).running + (l.free - 1) = k
      omega
    · change m ∈ l.waiting ↔ (l.setTask n (.workflow id .running e)).admission? m = _
      rw [admission?_setTask inside, line.waits]
      split
      next same => simp [← same, here]
      next => rfl
    · exact line.sorted
    · refine line.ranks_setTask there (by decide) (fun m c before hm => ?_) before hi hj
      cases c with
      | arriving => exact absurd rfl (asked m _ before hm)
      | waiting =>
        have waits := (line.waits m).mpr hm
        simp [empty] at waits
      | _ => decide

/-- Who is through gives its permit away. -/
theorem leave (line : l.Line (k + 1)) (there : l.tasks[n]? = some (.workflow id .running e))
    (e' : Execution) : (l.setTask n (.workflow id .over e')).Line k := by
  have inside := (List.getElem?_eq_some_iff.mp there).1
  have here := admission?_of_task there
  have count := running_setTask there (.workflow id .over e')
  refine ⟨?_, line.busy, fun m => ?_, line.sorted, fun before hi hj => ?_⟩
  · have : l.running + l.free = k + 1 := line.permits
    simp only [Task.isRunning, Bool.toNat_false, Bool.toNat_true] at count
    change (l.setTask n (.workflow id .over e')).running + l.free = k
    omega
  · rw [admission?_setTask inside]
    refine (line.waits m).trans ?_
    split
    next same => simp [← same, here]
    next => rfl
  · refine line.ranks_setTask there (by decide) (fun m c before hm => ?_) before hi hj
    exact (line.ranks before hm here : Admission.rank .running ≤ c.rank)

/-- A permit that is given back is had by who waits longest, or it is free. -/
theorem release (line : l.Line k) : l.release.Line (k + 1) := by
  unfold Launcher.release
  split
  next empty =>
    have permits : l.running + l.free = k := line.permits
    refine ⟨?_, fun waits => absurd empty waits, line.waits, line.sorted, line.ranks⟩
    change l.running + (l.free + 1) = k + 1
    omega
  next n rest waiting =>
    have here := (line.waits n).mp (by simp [waiting])
    obtain ⟨id, e, there⟩ := admission?_eq_some.mp here
    have inside := (List.getElem?_eq_some_iff.mp there).1
    obtain ⟨first, sorted⟩ := List.pairwise_cons.mp (waiting ▸ line.sorted)
    have granted : l.grant n = l.setTask n (.workflow id .running e) := by
      rw [grant, there]
    have count := running_setTask there (.workflow id .running e)
    have full : l.free = 0 := line.busy (by simp [waiting])
    rw [granted]
    refine ⟨?_, fun _ => full, fun m => ?_, sorted, fun before hi hj => ?_⟩
    · have : l.running + l.free = k := line.permits
      simp only [Task.isRunning, Bool.toNat_false, Bool.toNat_true] at count
      change (l.setTask n (.workflow id .running e)).running + l.free = k + 1
      omega
    · change m ∈ rest ↔ (l.setTask n (.workflow id .running e)).admission? m = _
      rw [admission?_setTask inside]
      have all := line.waits m
      rw [waiting, List.mem_cons] at all
      split
      next same =>
        subst same
        simp only [Option.some.injEq, reduceCtorEq, iff_false]
        exact fun mem => Nat.lt_irrefl n (first n mem)
      next other => rw [← all, or_iff_right (Ne.symm other)]
    · refine line.ranks_setTask there (by decide) (fun m c before hm => ?_) before hi hj
      have ahead := line.ranks before hm here
      cases c with
      | arriving => exact absurd ahead (by decide)
      | waiting =>
        have waits := (line.waits m).mpr hm
        rw [waiting, List.mem_cons] at waits
        rcases waits with rfl | mem
        · omega
        · have := first m mem
          omega
      | _ => decide

/-- A task that is added behind all others has no permit, and has not asked for one if it is that of
a workflow. -/
theorem append (line : l.Line k) (new : ∀ id a e, task = .workflow id a e → a = .arriving)
    (tasks : l'.tasks = l.tasks ++ [task]) (free : l'.free = l.free)
    (waiting : l'.waiting = l.waiting) : l'.Line k := by
  have admission (n : Nat) : l'.admission? n = l.admission? n ∨
      l.tasks.length ≤ n ∧ l'.admission? n = some .arriving := by
    rcases Nat.lt_trichotomy n l.tasks.length with inside | rfl | outside
    · exact .inl (admission?_congr (by rw [tasks, List.getElem?_append_left inside]))
    · have there : l'.tasks[l.tasks.length]? = some task := by
        rw [tasks, List.getElem?_concat_length]
      have nobody : l.admission? l.tasks.length = none := by
        simp [admission?]
      cases task with
      | cleanup c => exact .inl (by rw [nobody, admission?, there])
      | workflow id a e =>
        obtain rfl := new id a e rfl
        exact .inr ⟨Nat.le_refl _, admission?_of_task there⟩
    · refine .inl (admission?_congr ?_)
      rw [tasks, List.getElem?_eq_none (by simpa using Nat.succ_le_of_lt outside),
        List.getElem?_eq_none (Nat.le_of_lt outside)]
  have idle : task.isRunning = false := by
    cases task with
    | cleanup c => rfl
    | workflow id a e =>
      obtain rfl := new id a e rfl
      rfl
  have permits : l.running + l.free = k := line.permits
  refine ⟨?_, ?_, fun n => ?_, waiting ▸ line.sorted, fun {m n a b} before hm hn => ?_⟩
  · have running : l'.running = l.running := by
      simp [running, tasks, idle]
    rw [running, free, permits]
  · rw [waiting, free]
    exact line.busy
  · rw [waiting, line.waits]
    rcases admission n with same | ⟨outside, arriving⟩
    · rw [same]
    · have nobody : l.admission? n = none := by
        simp [admission?, List.getElem?_eq_none outside]
      simp [nobody, arriving]
  · rcases admission n with same | ⟨outside, arriving⟩
    · rcases admission m with same' | ⟨outside, -⟩
      · rw [same] at hn
        rw [same'] at hm
        exact line.ranks before hm hn
      · have nobody : l.admission? n = none := by
          simp [admission?, List.getElem?_eq_none (show l.tasks.length ≤ n by omega)]
        rw [same, nobody] at hn
        cases hn
    · obtain rfl := Option.some.inj (arriving.symm.trans hn)
      exact Nat.zero_le _

theorem inWaiting (line : l.Line k) : Waits l where
  idle n mem := admission?_eq_some.mp ((line.waits n).mp mem)
  once := line.sorted.imp fun before => Nat.ne_of_lt before

/-- Who has a permit has one of those that there are. -/
theorem exists_running (line : l.Line k) (there : l.tasks[n]? = some (.workflow id .running e)) :
    ∃ j, k = j + 1 := by
  have has : 0 < l.running := List.countP_pos_iff.mpr ⟨_, List.mem_of_getElem? there, rfl⟩
  have permits : l.running + l.free = k := line.permits
  exact ⟨k - 1, by omega⟩

theorem spawnCleanups (line : l.Line k) (held : List String) :
    (held.foldl spawnCleanup l).Line k := by
  induction held generalizing l with
  | nil => exact line
  | cons container rest ih =>
    have spawned : (l.spawnCleanup container).Line k :=
      line.append (by simp) rfl rfl rfl
    exact ih spawned

end Line

/-! ### The queue -/

/-- Whoever has not asked for a permit, or has one and has not begun, stands in the queue of those who
are ready to go on; those who have not asked stand there in the order of submission. -/
structure Queued (l : Launcher) : Prop where
  bounded : ∀ n ∈ l.queue, n < l.tasks.length
  asks : ∀ n, l.admission? n = some .arriving → n ∈ l.queue
  inOrder : (l.queue.filter fun n => l.admission? n == some .arriving).Pairwise (· < ·)
  ready : ∀ {n id a e}, l.tasks[n]? = some (.workflow id a e) → a ≠ .over → e.phase = .fresh →
    e.IsCalled ∧ (a = .running → n ∈ l.queue)

namespace Queued

theorem of_same (queued : l.Queued) (tasks : l'.tasks = l.tasks) (queue : l'.queue = l.queue) :
    l'.Queued := by
  have same : l'.admission? = l.admission? := funext fun n => admission?_congr (by rw [tasks])
  refine ⟨?_, ?_, ?_, ?_⟩
  · rw [queue, tasks]
    exact queued.bounded
  · rw [same, queue]
    exact queued.asks
  · rw [same, queue]
    exact queued.inOrder
  · rw [tasks, queue]
    exact queued.ready

/-- The first in the queue, if it has not asked for a permit, was submitted before all others that
have not. -/
theorem first (queued : l.Queued) {rest : List Nat} (queue : l.queue = n :: rest)
    (here : l.admission? n = some .arriving) (m : Nat) (hm : l.admission? m = some .arriving) :
    n ≤ m := by
  have mem := queued.asks m hm
  have order := queued.inOrder
  rw [queue, List.filter_cons_of_pos (by simpa using here), List.pairwise_cons] at order
  rw [queue, List.mem_cons] at mem
  rcases mem with rfl | mem
  · exact Nat.le_refl m
  · exact Nat.le_of_lt (order.1 m (List.mem_filter.mpr ⟨mem, by simpa using hm⟩))

/-- A task may change where it stands. It has asked for a permit then. -/
theorem setTask (queued : l.Queued) (inside : n < l.tasks.length) {a : Admission}
    (asked : a ≠ .arriving)
    (ready : a ≠ .over → e.phase = .fresh → e.IsCalled ∧ (a = .running → n ∈ l.queue)) :
    (l.setTask n (.workflow id a e)).Queued := by
  have admission := admission?_setTask inside id a e
  have still (m : Nat) (h : (l.setTask n (.workflow id a e)).admission? m = some .arriving) :
      l.admission? m = some .arriving := by
    rw [admission] at h
    split at h
    · exact absurd (Option.some.inj h) asked
    · exact h
  refine ⟨fun m mem => ?_, fun m hm => queued.asks m (still m hm), ?_,
    fun {m id' a' e'} there unended fresh => ?_⟩
  · simpa [Launcher.setTask] using queued.bounded m mem
  · refine queued.inOrder.sublist (List.monotone_filter_right _ fun m h => ?_)
    simpa using still m (by simpa using h)
  · by_cases same : n = m
    · subst same
      have new : (l.setTask n (.workflow id a e)).tasks[n]? = some (.workflow id a e) :=
        List.getElem?_set_self inside
      cases new.symm.trans there
      exact ready unended fresh
    · exact queued.ready (by simpa [Launcher.setTask, same] using there) unended fresh

theorem setCleanup (queued : l.Queued) {c : Cleanup} (there : l.tasks[n]? = some (.cleanup c))
    (c' : Cleanup) : (l.setTask n (.cleanup c')).Queued := by
  have same := admission?_setCleanup there c'
  refine ⟨fun m mem => ?_, fun m hm => queued.asks m (same m ▸ hm), ?_,
    fun {m id a e} here unended fresh => ?_⟩
  · simpa [Launcher.setTask] using queued.bounded m mem
  · have order := queued.inOrder
    rw [← funext same] at order
    exact order
  · have before : l.tasks[m]? = some (.workflow id a e) := by
      rw [Launcher.setTask, List.getElem?_set] at here
      split at here
      · rw [if_pos (List.getElem?_eq_some_iff.mp there).1] at here
        cases here
      · exact here
    exact queued.ready before unended fresh

/-- Whoever has asked for a permit may be put behind all others. -/
theorem push (queued : l.Queued) (inside : n < l.tasks.length)
    (asked : l.admission? n ≠ some .arriving) (tasks : l'.tasks = l.tasks)
    (queue : l'.queue = l.queue ++ [n]) : l'.Queued := by
  have same : l'.admission? = l.admission? := funext fun n => admission?_congr (by rw [tasks])
  refine ⟨fun m mem => ?_, fun m hm => ?_, ?_, fun {m id a e} there unended fresh => ?_⟩
  · rw [queue, List.mem_append, List.mem_singleton] at mem
    rw [tasks]
    rcases mem with mem | rfl
    · exact queued.bounded m mem
    · exact inside
  · rw [queue]
    exact List.mem_append_left _ (queued.asks m (same ▸ hm))
  · rw [same, queue, List.filter_append]
    simpa [asked] using queued.inOrder
  · obtain ⟨called, mem⟩ := queued.ready (tasks ▸ there) unended fresh
    exact ⟨called, fun running => queue ▸ List.mem_append_left _ (mem running)⟩

/-- A task that is added has its turn behind all others. -/
theorem append (queued : l.Queued)
    (new : ∀ id a e, task = .workflow id a e → a = .arriving ∧ e.IsCalled)
    (tasks : l'.tasks = l.tasks ++ [task]) (queue : l'.queue = l.queue ++ [l.tasks.length]) :
    l'.Queued := by
  have old (m : Nat) (inside : m < l.tasks.length) : l'.tasks[m]? = l.tasks[m]? := by
    rw [tasks, List.getElem?_append_left inside]
  have there : l'.tasks[l.tasks.length]? = some task := by
    rw [tasks, List.getElem?_concat_length]
  have range {m : Nat} {t : Task} (h : l'.tasks[m]? = some t) :
      m < l.tasks.length ∨ m = l.tasks.length := by
    have := (List.getElem?_eq_some_iff.mp h).1
    rw [tasks, List.length_append, List.length_singleton] at this
    omega
  refine ⟨fun m mem => ?_, fun m hm => ?_, ?_, fun {m id a e} here unended fresh => ?_⟩
  · rw [queue, List.mem_append, List.mem_singleton] at mem
    rw [tasks, List.length_append, List.length_singleton]
    rcases mem with mem | rfl
    · exact Nat.lt_succ_of_lt (queued.bounded m mem)
    · omega
  · obtain ⟨id, e, here⟩ := admission?_eq_some.mp hm
    rw [queue]
    rcases range here with inside | rfl
    · exact List.mem_append_left _ (queued.asks m (admission?_of_task (old m inside ▸ here)))
    · simp
  · have before : l.queue.filter (fun n => l'.admission? n == some .arriving) =
        l.queue.filter fun n => l.admission? n == some .arriving :=
      List.filter_congr fun m mem => by rw [admission?_congr (old m (queued.bounded m mem))]
    rw [queue, List.filter_append, before]
    refine List.pairwise_append.mpr ⟨queued.inOrder, (List.pairwise_singleton _ _).filter _, ?_⟩
    intro m mem n hn
    obtain rfl := List.mem_singleton.mp (List.mem_of_mem_filter hn)
    exact queued.bounded m (List.mem_of_mem_filter mem)
  · rcases range here with inside | rfl
    · obtain ⟨called, mem⟩ := queued.ready (old m inside ▸ here) unended fresh
      exact ⟨called, fun running => queue ▸ List.mem_append_left _ (mem running)⟩
    · cases there.symm.trans here
      obtain ⟨rfl, called⟩ := new _ _ _ rfl
      exact ⟨called, nofun⟩

theorem spawnCleanups (queued : l.Queued) (held : List String) :
    (held.foldl spawnCleanup l).Queued := by
  induction held generalizing l with
  | nil => exact queued
  | cons container rest ih =>
    have spawned : (l.spawnCleanup container).Queued := queued.append (by simp) rfl rfl
    exact ih spawned

/-- The queue may be put in another order if nobody who has not asked for a permit is passed over,
and nobody who has to begin is forgotten. -/
theorem reorder (queued : l.Queued) {queue : List Nat} (bounded : ∀ n ∈ queue, n ∈ l.queue)
    (kept : ∀ n ∈ l.queue, n ∈ queue ∨ (l.admission? n ≠ some .arriving ∧
      ∀ id e, l.tasks[n]? = some (.workflow id .running e) → e.phase ≠ .fresh))
    (order : (queue.filter fun n => l.admission? n == some .arriving).Pairwise (· < ·)) :
    ({ l with queue } : Launcher).Queued := by
  refine ⟨fun n mem => queued.bounded n (bounded n mem), fun n hn => ?_, order,
    fun {n id a e} there unended fresh => ?_⟩
  · exact (kept n (queued.asks n hn)).resolve_right fun other => other.1 hn
  · obtain ⟨called, mem⟩ := queued.ready there unended fresh
    refine ⟨called, fun running => ?_⟩
    exact (kept n (mem running)).resolve_right fun other => other.2 id e (running ▸ there) fresh

end Queued

/-! ### Turns -/

section Turns

variable {engine : Engine} {e' : Execution} {w w' : World} {path : List Nat}

/-- No turn leads back before the beginning. -/
theorem unfresh_of_move (moved : e.move engine w path = .moved w' e') : e'.phase ≠ .fresh := by
  cases Execution.turned_of_move moved <;> simp

theorem move_of_fresh (fresh : e.phase = .fresh) : ∃ w' e', e.move engine w path = .moved w' e' := by
  unfold Execution.move
  rw [fresh]
  dsimp only
  unfold Execution.begin
  split <;> exact ⟨_, _, rfl⟩

/-- What has not begun behind a step has its turn. -/
theorem onTurn_of_step (stepped : e.step engine w = .moved w' e') (fresh : e'.phase = .fresh) :
    e'.rota.onTurn = true := by
  unfold Execution.step at stepped
  split at stepped
  · dsimp only at stepped
    split at stepped
    next after moved =>
      cases stepped
      obtain ⟨rota, same⟩ := @Execution.follow_eq engine e w' e.rota.place after
      rw [same] at fresh
      exact (unfresh_of_move moved fresh).elim
    next => cases stepped
    next unmoved _ =>
      cases stepped
      obtain ⟨rota, same⟩ := @Execution.giveWay_eq e e.rota.place
      rw [same] at fresh
      obtain ⟨w', e', moved⟩ := @move_of_fresh e engine w e.rota.place fresh
      exact absurd moved (unmoved w' e')
  · split at stepped <;> cases stepped
    rfl

/-- What has not begun behind a step had not begun before it. -/
theorem fresh_of_step (stepped : e.step engine w = .moved w' e') (fresh : e'.phase = .fresh) :
    e.phase = .fresh := by
  rcases Execution.step_moved stepped with ⟨after, rota, moved, rfl⟩ | ⟨-, rota, rfl⟩
  · have begun := unfresh_of_move moved
    exact absurd fresh begun
  · exact fresh

/-- Who has the turn or wants it can make a step. -/
theorem step_ne_blocked (called : e.IsCalled) : e.step engine w ≠ .blocked := by
  intro blocked
  unfold Execution.step at blocked
  split at blocked
  · dsimp only at blocked
    split at blocked <;> cases blocked
  next off =>
    rw [if_pos (called.resolve_left off)] at blocked
    cases blocked

end Turns

/-- The launcher in which the execution of a task has gone on. -/
abbrev after (l : Launcher) (n : Nat) (id : String) (w : World) (e : Execution) : Launcher :=
  { l.setTask n (.workflow id .running e) with world := w }

/-- Everything that a step may be. -/
inductive Stepped (l : Launcher) : Launcher → Prop
  /-- The first in the queue has nothing to do. -/
  | passes {n : Nat} {rest : List Nat} (queue : l.queue = n :: rest) (stuck : l.turn n = none) :
    Stepped l { l with queue := rest }
  | turns {n : Nat} {rest : List Nat} {l' : Launcher} (queue : l.queue = n :: rest)
    (had : l.turn n = some l') : Stepped l l'
  /-- The turn of an execution ends that wants another one. -/
  | yields {n : Nat} {rest : List Nat} {id : String} {e e' : Execution} {w' : World}
    (queue : l.queue = n :: rest) (there : l.tasks[n]? = some (.workflow id .running e))
    (moved : e.step l.engine l.world = .moved w' e') (off : e'.rota.onTurn = false)
    (called : e'.rota.called = true) (had : l.turn n = some (l.after n id w' e')) :
    Stepped l { l.after n id w' e' with queue := rest ++ [n] }

theorem step_cases (waits : Waits l) (stepped : l.step = some l') : l.Stepped l' := by
  unfold Launcher.step at stepped
  split at stepped
  next => cases stepped
  next n rest queue =>
    split at stepped
    next stuck =>
      cases stepped
      exact .passes queue stuck
    next l₁ had =>
      split at stepped
      next again =>
        cases stepped
        simp only [Bool.and_eq_true, Bool.not_eq_true'] at again
        obtain ⟨⟨onTurn, off⟩, called⟩ := again
        unfold isOnTurn at onTurn
        split at onTurn
        next id e there =>
          -- An execution that is through does not want another turn.
          have goes_on {e₀ : Execution} {l₂ : Launcher} {more : List Task}
              (granted : Task.AllGranted (l.tasks.set n (.workflow id .over e₀) ++ more) l₂.tasks) :
              l₂.isRestless n = false := by
            obtain ⟨new, here, granted⟩ := tasks_forward granted there
            rw [if_pos rfl] at granted
            cases granted
            simp [isRestless, here]
          have turned := had
          simp only [Launcher.turn, there] at had
          have inside := (List.getElem?_eq_some_iff.mp there).1
          split at had
          next result ended =>
            cases had
            obtain ⟨world, closed⟩ := @close_eq l n id e result
            rw [closed] at called
            cases called.symm.trans (goes_on (over_granted waits there world _))
          next live =>
            split at had
            next w' e' moved =>
              cases had
              have here : (l.after n id w' e').tasks[n]? = some (.workflow id .running e') :=
                List.getElem?_set_self inside
              simp only [isOnTurn, here] at off
              simp only [isRestless, here] at called
              rw [show (l.after n id w' e').queue.tail = rest from by
                change l.queue.tail = rest
                rw [queue, List.tail_cons]]
              exact .yields queue there moved off called turned
            next w' reason held crashed =>
              cases had
              have granted := breakDown_granted (l := { l with world := w' })
                (waits.of_tasks rfl rfl) there reason held
              rw [goes_on granted] at called
              cases called
            next => cases had
        next => cases onTurn
      next =>
        cases stepped
        exact .turns queue had

/-- Whoever has not begun waits or is ready to, in the order of submission. -/
structure InLine (k : Nat) (l : Launcher) : Prop where
  line : l.Line k
  queued : l.Queued

namespace InLine

/-- Whoever gets a permit that is given back has not begun, and goes to the end of the queue. -/
theorem queued_release (line : l.Line k) (queued : l.Queued) :
    l.release.Queued ∧ ∃ more, l.release.queue = l.queue ++ more := by
  unfold Launcher.release
  split
  next => exact ⟨queued.of_same rfl rfl, [], (List.append_nil _).symm⟩
  next n rest waiting =>
    have here := (line.waits n).mp (by simp [waiting])
    obtain ⟨id, e, there⟩ := admission?_eq_some.mp here
    have inside := (List.getElem?_eq_some_iff.mp there).1
    have granted : l.grant n = l.setTask n (.workflow id .running e) := by
      rw [grant, there]
    rw [granted]
    have pushed : ({ l with waiting := rest, queue := l.queue ++ [n] } : Launcher).Queued :=
      queued.push inside (by simp [here]) rfl rfl
    have set : (Launcher.setTask { l with waiting := rest, queue := l.queue ++ [n] } n
        (.workflow id .running e)).Queued :=
      pushed.setTask inside (by simp) fun _ fresh =>
        ⟨(queued.ready there (by simp) fresh).1, fun _ => by simp⟩
    exact ⟨set, [n], rfl⟩

theorem foldl_spawnCleanup_queue (held : List String) :
    ∃ more, (held.foldl spawnCleanup l).queue = l.queue ++ more := by
  induction held generalizing l with
  | nil => exact ⟨[], (List.append_nil _).symm⟩
  | cons container rest ih =>
    obtain ⟨more, queue⟩ := ih (l := l.spawnCleanup container)
    exact ⟨l.tasks.length :: more, by rw [List.foldl_cons, queue]; simp [spawnCleanup]⟩

/-- A turn of the first in the queue leaves it there, and keeps the line. -/
theorem turn (inLine : l.InLine k) {rest : List Nat} (queue : l.queue = n :: rest)
    (had : l.turn n = some l') : l'.InLine k ∧ ∃ more, l'.queue = l.queue ++ more := by
  obtain ⟨line, queued⟩ := inLine
  have inQueue : n ∈ l.queue := by simp [queue]
  have nothing : l.queue = l.queue ++ [] := (List.append_nil _).symm
  suffices h : l'.Line k ∧ l'.Queued ∧ ∃ more, l'.queue = l.queue ++ more from
    ⟨⟨h.1, h.2.1⟩, h.2.2⟩
  unfold Launcher.turn at had
  split at had
  next id e there =>
    cases had
    have inside := (List.getElem?_eq_some_iff.mp there).1
    have first := queued.first queue (admission?_of_task there)
    have called := fun fresh => (queued.ready there (by simp) fresh).1
    refine ⟨line.arrive there first, ?_⟩
    unfold arrive
    split
    · have set : (l.setTask n (.workflow id .waiting e)).Queued :=
        queued.setTask inside (by simp) fun _ fresh => ⟨called fresh, nofun⟩
      exact ⟨set.of_same rfl rfl, [], nothing⟩
    · have set : (l.setTask n (.workflow id .running e)).Queued :=
        queued.setTask inside (by simp) fun _ fresh => ⟨called fresh, fun _ => inQueue⟩
      exact ⟨set.of_same rfl rfl, [], nothing⟩
  next id e there =>
    have inside := (List.getElem?_eq_some_iff.mp there).1
    obtain ⟨k, rfl⟩ := line.exists_running there
    have left (e' : Execution) : (l.setTask n (.workflow id .over e')).Line k := line.leave there e'
    have leftQueued (e' : Execution) : (l.setTask n (.workflow id .over e')).Queued :=
      queued.setTask inside (by simp) (by simp)
    split at had
    next result ended =>
      cases had
      obtain ⟨world, closed⟩ := @close_eq l n id e result
      rw [closed]
      let l₁ := Launcher.setTask { l with world } n
        (.workflow id .over { e with state := (e.state.advance .done).1 })
      have line₁ : l₁.Line k := (left _).of_same rfl rfl rfl fun _ => rfl
      have queued₁ : l₁.Queued := (leftQueued _).of_same rfl rfl
      obtain ⟨queued₂, more, grown⟩ := queued_release line₁ queued₁
      exact ⟨line₁.release, queued₂, more, grown⟩
    next =>
      split at had
      next w e' moved =>
        cases had
        have set : (l.setTask n (.workflow id .running e')).Queued :=
          queued.setTask inside (by simp) fun _ fresh =>
            ⟨.inl (onTurn_of_step moved fresh), fun _ => inQueue⟩
        have count := running_setTask there (.workflow id .running e')
        refine ⟨line.of_same rfl rfl (Nat.add_right_cancel count) fun m => ?_, set.of_same rfl rfl, [],
          nothing⟩
        refine (admission?_setTask inside id .running e' m).trans ?_
        split
        next same => rw [← same, admission?_of_task there]
        next => rfl
      next w reason held crashed =>
        cases had
        let l₁ := Launcher.setTask { l with world := w } n
          (.workflow id .over { e with phase := .crashed reason })
        have line₁ : l₁.Line k := (left _).of_same rfl rfl rfl fun _ => rfl
        have queued₁ : l₁.Queued := (leftQueued _).of_same rfl rfl
        obtain ⟨more, spawned⟩ := @foldl_spawnCleanup_queue l₁ held
        obtain ⟨queued₂, others, grown⟩ := queued_release (line₁.spawnCleanups held)
          (queued₁.spawnCleanups held)
        refine ⟨(line₁.spawnCleanups held).release, queued₂, more ++ others, ?_⟩
        exact (grown.trans (congrArg (· ++ others) spawned)).trans (List.append_assoc ..)
      next => cases had
  next c there =>
    obtain ⟨⟨w, c'⟩, -, rfl⟩ := Option.map_eq_some_iff.mp had
    have count := running_setTask there (.cleanup c')
    exact ⟨line.of_same rfl rfl (Nat.add_right_cancel count) (admission?_setCleanup there c'),
      (queued.setCleanup there c').of_same rfl rfl, [], nothing⟩
  next => cases had

/-- A task that has to wait has begun, or waits for a permit. -/
theorem passed_over (inLine : l.InLine k) (stuck : l.turn n = none) :
    l.admission? n ≠ some .arriving ∧
      ∀ id e, l.tasks[n]? = some (.workflow id .running e) → e.phase ≠ .fresh := by
  constructor
  · intro here
    obtain ⟨id, e, there⟩ := admission?_eq_some.mp here
    simp [Launcher.turn, there] at stuck
  · intro id e there fresh
    have called := (inLine.queued.ready there (by simp) fresh).1
    have live : e.result? = none := by simp [Execution.result?, fresh]
    simp only [Launcher.turn, there, live] at stuck
    cases stepped : e.step l.engine l.world with
    | blocked => exact step_ne_blocked called stepped
    | moved | crashed => simp [stepped] at stuck
    | ended _ value => cases value

theorem step (inLine : l.InLine k) (stepped : l.step = some l') : l'.InLine k := by
  cases step_cases inLine.line.inWaiting stepped with
  | @passes n rest queue stuck =>
    have begun := inLine.passed_over stuck
    refine ⟨inLine.line.of_same rfl rfl rfl fun _ => rfl, inLine.queued.reorder ?_ ?_ ?_⟩
    · exact fun m mem => queue ▸ List.mem_cons_of_mem _ mem
    · intro m mem
      rw [queue, List.mem_cons] at mem
      rcases mem with rfl | mem
      · exact .inr begun
      · exact .inl mem
    · have order := inLine.queued.inOrder
      rw [queue] at order
      exact order.sublist ((List.sublist_cons_self n rest).filter _)
  | turns queue had => exact (inLine.turn queue had).1
  | @yields n rest id e e' w' queue there moved off called had =>
    obtain ⟨kept, -⟩ := inLine.turn queue had
    have inside := (List.getElem?_eq_some_iff.mp there).1
    have asked : (after l n id w' e').admission? n ≠ some .arriving := by
      rw [show (after l n id w' e').admission? n = some .running from
        (admission?_setTask inside id .running e' n).trans (if_pos rfl)]
      simp
    refine ⟨kept.line.of_same rfl rfl rfl fun _ => rfl, kept.queued.reorder ?_ ?_ ?_⟩
    · intro m mem
      change m ∈ l.queue
      rw [queue, List.mem_cons]
      rcases List.mem_append.mp mem with mem | mem
      · exact .inr mem
      · exact .inl (List.mem_singleton.mp mem)
    · intro m mem
      have mem : m ∈ l.queue := mem
      rw [queue, List.mem_cons] at mem
      rw [List.mem_append, List.mem_singleton]
      exact .inl mem.symm
    · have order : (l.queue.filter fun m =>
          (after l n id w' e').admission? m == some .arriving).Pairwise (· < ·) := kept.queued.inOrder
      rw [queue, List.filter_cons_of_neg (by simpa using asked)] at order
      rw [List.filter_append]
      simpa [asked] using order

/-- Whoever sleeps has a permit, or is a cleanup. -/
theorem mem_sleepers {timer : Timer} {tasks : List Task} {from_ : Nat}
    (mem : (timer, n) ∈ sleepers from_ tasks) :
    ∃ i task, n = from_ + i ∧ tasks[i]? = some task ∧ timersOf task ≠ [] := by
  induction tasks generalizing from_ with
  | nil => cases mem
  | cons task rest ih =>
    have later (mem : (timer, n) ∈ sleepers (from_ + 1) rest) :
        ∃ i t, n = from_ + i ∧ (task :: rest)[i]? = some t ∧ timersOf t ≠ [] := by
      obtain ⟨i, t, rfl, there, waits⟩ := ih mem
      exact ⟨i + 1, t, by omega, there, waits⟩
    unfold sleepers at mem
    split at mem
    next found =>
      rcases List.mem_cons.mp mem with same | mem
      · cases same
        refine ⟨0, task, rfl, rfl, fun none_ => ?_⟩
        simp [none_, firstTimer?] at found
      · exact later mem
    next => exact later mem

theorem getElem?_moveTo (t n : Nat) : (l.moveTo t).tasks[n]? =
    l.tasks[n]?.map (wake l.engine { l.world with clock := t }) := List.getElem?_map ..

theorem admission?_moveTo (t n : Nat) : (l.moveTo t).admission? n = l.admission? n := by
  unfold admission?
  rw [getElem?_moveTo]
  cases l.tasks[n]? with
  | none => rfl
  | some task =>
    cases task with
    | cleanup c => rfl
    | workflow id a e => cases a <;> rfl

/-- Whoever is woken as time passes goes to the end of the queue, and has slept. -/
theorem exists_woken (t : Nat) : ∃ woken, (l.moveTo t).queue = l.queue ++ woken ∧
    ∀ n ∈ woken, ∃ task, l.tasks[n]? = some task ∧ timersOf task ≠ [] := by
  refine ⟨_, rfl, fun n mem => ?_⟩
  obtain ⟨⟨timer, m⟩, due, rfl⟩ := List.mem_map.mp mem
  obtain ⟨i, task, at_, there, waits⟩ :=
    mem_sleepers (List.mem_filter.mp (List.mem_mergeSort.mp due)).1
  obtain rfl : m = i := by omega
  exact ⟨task, there, waits⟩

theorem moveTo (inLine : l.InLine k) (t : Nat) : (l.moveTo t).InLine k := by
  have tasks := @getElem?_moveTo l t
  have same := @admission?_moveTo l t
  have running : (l.moveTo t).running = l.running := by
    have kept : Task.isRunning ∘ wake l.engine { l.world with clock := t } = Task.isRunning := by
      funext task
      cases task with
      | cleanup c => rfl
      | workflow id a e => cases a <;> rfl
    rw [Launcher.running, show (l.moveTo t).tasks = l.tasks.map _ from rfl, List.countP_map, kept]
    rfl
  obtain ⟨woken, queue, sleeps⟩ := @exists_woken l t
  have calls (n : Nat) (mem : n ∈ woken) :
      n < l.tasks.length ∧ l.admission? n ≠ some .arriving := by
    obtain ⟨task, there, waits⟩ := sleeps n mem
    refine ⟨(List.getElem?_eq_some_iff.mp there).1, fun arriving => waits ?_⟩
    obtain ⟨id, e, here⟩ := admission?_eq_some.mp arriving
    cases there.symm.trans here
    rfl
  refine ⟨inLine.line.of_same rfl rfl running same, fun n mem => ?_, fun n hn => ?_, ?_,
    fun {n id a e} there unended fresh => ?_⟩
  · rw [queue, List.mem_append] at mem
    rw [show (l.moveTo t).tasks.length = l.tasks.length from List.length_map ..]
    exact mem.elim (inLine.queued.bounded n) fun mem => (calls n mem).1
  · rw [queue]
    exact List.mem_append_left _ (inLine.queued.asks n (same n ▸ hn))
  · have others : woken.filter (fun n => l.admission? n == some .arriving) = [] :=
      List.filter_eq_nil_iff.mpr fun n mem => by simpa using (calls n mem).2
    rw [queue, funext same, List.filter_append, others, List.append_nil]
    exact inLine.queued.inOrder
  · obtain ⟨task, before, woken⟩ := Option.map_eq_some_iff.mp ((tasks n).symm.trans there)
    cases task with
    | cleanup c => cases woken
    | workflow id' a' e' =>
      -- Nobody who has not begun is woken by time.
      have kept : a' = a ∧ e'.phase = e.phase ∧ (e'.phase = .fresh → e' = e) := by
        cases a' with
        | running =>
          cases woken
          obtain ⟨rota, same⟩ := @Execution.wake_eq l.engine e' { l.world with clock := t }
          refine ⟨rfl, by rw [same], fun unbegun => ?_⟩
          unfold Execution.wake
          rw [unbegun]
        | _ =>
          cases woken
          exact ⟨rfl, rfl, fun _ => rfl⟩
      obtain ⟨rfl, phase, unchanged⟩ := kept
      obtain rfl := unchanged (phase.trans fresh)
      obtain ⟨called, mem⟩ := inLine.queued.ready before unended fresh
      exact ⟨called, fun running => queue ▸ List.mem_append_left _ (mem running)⟩

theorem submit (inLine : l.InLine k) (id source : String) (properties : Properties) :
    (l.submit id source properties).1.InLine k := by
  cases parsed : Script.parse source with
  | error error =>
    rw [submit_error properties parsed]
    exact inLine
  | ok pipeline =>
    rw [submit_ok properties parsed]
    refine ⟨inLine.line.append ?_ rfl rfl rfl, inLine.queued.append ?_ rfl rfl⟩
    · rintro id a e ⟨⟩
      rfl
    · rintro id a e ⟨⟩
      exact ⟨rfl, .inr rfl⟩

theorem of_same (inLine : l.InLine k) (tasks : l'.tasks = l.tasks) (free : l'.free = l.free)
    (waiting : l'.waiting = l.waiting) (queue : l'.queue = l.queue) : l'.InLine k := by
  refine ⟨inLine.line.of_same free waiting ?_ fun n => admission?_congr (by rw [tasks]),
    inLine.queued.of_same tasks queue⟩
  rw [Launcher.running, tasks, Launcher.running]

theorem inLine_new (engine : Engine) (world : World) (maxParallel : Nat) :
    (new engine world maxParallel).InLine maxParallel := by
  have nobody (n : Nat) : (new engine world maxParallel).admission? n = none := by
    simp [admission?, new]
  refine ⟨⟨Nat.zero_add _, fun waits => absurd rfl waits, fun n => ?_, .nil, fun _ hm => ?_⟩,
    ⟨fun _ mem => ?_, fun n hn => ?_, .nil, fun there => ?_⟩⟩
  · rw [nobody]
    simp [new]
  · rw [nobody] at hm
    cases hm
  · cases mem
  · rw [nobody] at hn
    cases hn
  · simp [new] at there

end InLine

end Launcher

end PipelineRunner
