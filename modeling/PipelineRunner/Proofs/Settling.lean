import Mathlib.Data.List.Perm.Basic
import Mathlib.Logic.Hydra
import PipelineRunner.Proofs.Endings
import PipelineRunner.Proofs.WaitingLine

/-! A launcher comes to rest at every instant. Each turn brings some task nearer to its end, and may
leave stops of containers behind, which are nearer to theirs than any workflow; or it leaves all tasks
as they are, and less is left of the rounds of an execution. Whoever has nothing to do leaves the
queue. -/

namespace PipelineRunner

/-- How often a workflow has yet to move on with the launcher. -/
def Admission.left : Admission → Nat
  | .arriving => 3
  | .waiting => 2
  | .running => 1
  | .over => 0

theorem Execution.clock_of_step {engine : Engine} {e e' : Execution} {w w' : World}
    (stepped : e.step engine w = .moved w' e') : w'.clock = w.clock := by
  rcases step_moved stepped with ⟨after, rota, moved, -⟩ | ⟨rfl, -⟩
  · have turn := move_atOnce (w := w) engine e e.rota.place
    rw [moved] at turn
    exact turn.1
  · rfl

theorem Cleanup.clock_of_step {runtime : ContainerRuntime} {c c' : Cleanup} {w w' : World}
    (stepped : c.step runtime w = some (w', c')) : w'.clock = w.clock := by
  rcases follow_of_step stepped with ⟨-, begun⟩ | ⟨wait, -, went_on⟩
  · exact (clock_of_follow begun).trans (World.atOnce_perform _ _ _).1
  · exact (clock_of_follow went_on).trans (World.atOnce_perform _ _ _).1

namespace Task

/-- What comes to an end in a task: a stop, or where a workflow stands and how far it has come. -/
abbrev Core := Cleanup ⊕ (Nat × Execution.Phase)

def core : Task → Core
  | workflow _ a e => .inr (a.left, e.phase)
  | cleanup c => .inl c

/-- The timers that a task waits for. -/
def Core.timers : Core → List Timer
  | .inl c => c.timers
  | .inr (1, .inStage _ _ _ run _ _) => run.timers
  | .inr _ => []

theorem timers_core (task : Task) : task.core.timers = Launcher.timersOf task := by
  cases task with
  | cleanup c => rfl
  | workflow id a e =>
    obtain ⟨pipeline, properties, state, phase, rota⟩ := e
    cases a <;> cases phase <;> rfl

/-- One of them is nearer to its end; stops come behind all workflows. -/
abbrev Lesser (policy : RetryPolicy) : Core → Core → Prop :=
  Sum.Lex Cleanup.Nearer (Prod.Lex (· < ·) (Execution.Phase.Nearer policy))

theorem wf_lesser (policy : RetryPolicy) : WellFounded (Lesser policy) :=
  Sum.lex_wf Cleanup.wf_nearer (Prod.lex ⟨_, Nat.lt_wfRel.wf⟩ ⟨_, Execution.Phase.wf_nearer⟩).wf

/-- What is left of the rounds of a task. -/
def potential : Task → Nat
  | workflow _ _ e => e.rota.potential
  | cleanup _ => 0

/-- What comes to an end in several tasks. -/
def cores (tasks : List Task) : Multiset Core := Multiset.ofList (tasks.map core)

/-- Some tasks are nearer to their ends, whatever they have left behind. -/
abbrev Fewer (policy : RetryPolicy) : Multiset Core → Multiset Core → Prop :=
  Relation.TransGen (Relation.CutExpand (Lesser policy))

variable {engine : Engine} {w w' : World} {task task' : Task} {more tasks tasks' : List Task}

theorem cores_cons (task : Task) (tasks : List Task) :
    cores (task :: tasks) = {task.core} + cores tasks := rfl

theorem cores_append (tasks more : List Task) : cores (tasks ++ more) = cores tasks + cores more := by
  simp [cores]

theorem cores_perm (perm : tasks.Perm tasks') : cores tasks = cores tasks' :=
  Multiset.coe_eq_coe.mpr (perm.map core)

theorem lesser_of_left {policy : RetryPolicy} {a b : Admission} (id : String) (e' e : Execution)
    (sooner : a.left < b.left) : Lesser policy (workflow id a e').core (workflow id b e).core :=
  .inr (.left _ _ sooner)

/-- A turn brings a task nearer to its end, with all that it leaves behind, or less is left of the
rounds. -/
theorem Does.lesser (does : Does engine w task w' task' more) :
    (Lesser engine.policy task'.core task.core ∧
      ∀ t ∈ more, Lesser engine.policy t.core task.core) ∨
    task'.core = task.core ∧ more = [] ∧ task'.potential < task.potential := by
  cases does with
  | waits id e => exact .inl ⟨lesser_of_left id e e (by decide), by simp⟩
  | enters id e => exact .inl ⟨lesser_of_left id e e (by decide), by simp⟩
  | succeeds id e | fails id e => exact .inl ⟨lesser_of_left id _ e (by decide), by simp⟩
  | goes id e moved =>
    rcases Execution.nearer_of_step moved with nearer | ⟨phase, -, less⟩
    · exact .inl ⟨.inr (.right _ nearer), by simp⟩
    · exact .inr ⟨by rw [core, core, phase], rfl, less⟩
  | breaks id e crashed =>
    refine .inl ⟨lesser_of_left id _ e (by decide), fun t mem => ?_⟩
    obtain ⟨container, -, rfl⟩ := List.mem_map.mp mem
    exact .sep _ _
  | cleans c stepped => exact .inl ⟨.inl (Cleanup.nearer_of_step stepped), by simp⟩

theorem Does.clock (does : Does engine w task w' task' more) : w'.clock = w.clock := by
  have entered (e : Execution) (id : String) (w : World) : (e.enter id .done w).1.clock = w.clock :=
    (e.enter_atOnce id .done).1
  cases does with
  | waits | enters => rfl
  | succeeds id e report ended => exact entered e id w
  | fails id e error ended => exact entered e id _
  | goes id e moved => exact Execution.clock_of_step moved
  | breaks id e crashed =>
    have turn := Execution.move_atOnce (w := w) engine e e.rota.place
    rw [Execution.step_crashed crashed] at turn
    exact turn.1
  | cleans c stepped => exact Cleanup.clock_of_step stepped

theorem allGranted_cons (granted : AllGranted (task :: tasks) tasks') :
    ∃ task' rest, tasks' = task' :: rest ∧ Granted task task' ∧ AllGranted tasks rest := by
  have first := granted 0
  cases tasks' with
  | nil => cases first
  | cons task' rest =>
    cases first with
    | some first => exact ⟨task', rest, rfl, first, fun n => granted (n + 1)⟩

/-- Tasks that are given permits are nearer to their ends, and no further from rest. -/
theorem AllGranted.weighs (granted : AllGranted tasks tasks') (policy : RetryPolicy) :
    Relation.ReflTransGen (Relation.CutExpand (Lesser policy)) (cores tasks') (cores tasks) ∧
      (tasks'.map potential).sum = (tasks.map potential).sum := by
  induction tasks generalizing tasks' with
  | nil =>
    have none_ := granted 0
    cases tasks' with
    | nil => exact ⟨.refl, rfl⟩
    | cons => cases none_
  | cons task tasks ih =>
    obtain ⟨task', rest, rfl, first, others⟩ := allGranted_cons granted
    obtain ⟨cores_le, same⟩ := ih others
    have lifted : Relation.ReflTransGen (Relation.CutExpand (Lesser policy))
        (cores (task' :: rest)) (cores (task' :: tasks)) :=
      cores_le.lift ({task'.core} + ·) fun _ _ less => (Relation.cutExpand_add_left _).mpr less
    cases first with
    | same => exact ⟨lifted, by simp [same]⟩
    | granted id e =>
      refine ⟨lifted.tail ?_, by simp [same, potential]⟩
      have sooner : Lesser policy (workflow id .running e).core (workflow id .waiting e).core :=
        lesser_of_left id e e (by decide)
      exact Relation.cutExpand_single_add sooner (cores tasks)

end Task

namespace Launcher

variable {l l' : Launcher} {n : Nat} {engine : Engine}

/-- How many of the timers that are waited for lie ahead. -/
def ahead (clock : Nat) (cores : Multiset Task.Core) : Nat :=
  (cores.map fun core => core.timers.countP fun timer => clock < timer.due).sum

/-- What comes to an end with a launcher, first what counts most. -/
abbrev Left := Multiset Task.Core × Nat × Nat × Nat

def left (l : Launcher) : Left :=
  (Task.cores l.tasks, ahead l.world.clock (Task.cores l.tasks), (l.tasks.map Task.potential).sum,
    l.queue.length)

/-- Less is left of the tasks, or as much of them and less of the timers, and so on. -/
abbrev Less (policy : RetryPolicy) : Left → Left → Prop :=
  Prod.Lex (Task.Fewer policy) (Prod.Lex (· < ·) (Prod.Lex (· < ·) (· < ·)))

theorem wf_less (policy : RetryPolicy) : WellFounded (Less policy) :=
  (Prod.lex ⟨_, (Task.wf_lesser policy).cutExpand.transGen⟩
    (Prod.lex ⟨_, Nat.lt_wfRel.wf⟩ (Prod.lex ⟨_, Nat.lt_wfRel.wf⟩ ⟨_, Nat.lt_wfRel.wf⟩))).wf

/-- After a turn less is left of the tasks, or of the rounds. -/
theorem fewer_of_turn (waits : Waits l) (had : l.turn n = some l') :
    Task.Fewer l.engine.policy (Task.cores l'.tasks) (Task.cores l.tasks) ∨
      Task.cores l'.tasks = Task.cores l.tasks ∧
        (l'.tasks.map Task.potential).sum < (l.tasks.map Task.potential).sum := by
  obtain ⟨task, task', more, there, does, granted⟩ := turn_cases waits had
  obtain ⟨inside, rfl⟩ := List.getElem?_eq_some_iff.mp there
  obtain ⟨below, potential⟩ := granted.weighs l.engine.policy
  have before := List.getElem_cons_eraseIdx_perm inside
  have behind := List.set_perm_cons_eraseIdx inside task'
  rw [Task.cores_append, Task.cores_perm behind, Task.cores_cons] at below
  rw [List.map_append, List.sum_append, (behind.map Task.potential).sum_eq] at potential
  rw [← Task.cores_perm before, Task.cores_cons, ← (before.map Task.potential).sum_eq, potential]
  rcases does.lesser with ⟨lesser, others⟩ | ⟨same, rfl, less⟩
  · have cut : Relation.CutExpand (Task.Lesser l.engine.policy)
        ({task'.core} + Task.cores more) {l.tasks[n].core} := by
      refine Relation.cutExpand_singleton fun core mem => ?_
      rcases Multiset.mem_add.mp mem with mem | mem
      · rwa [Multiset.mem_singleton.mp mem]
      · obtain ⟨t, left_behind, rfl⟩ := List.mem_map.mp (Multiset.mem_coe.mp mem)
        exact others t left_behind
    have whole := (Relation.cutExpand_add_right
      (Task.cores (l.tasks.eraseIdx n))).mpr cut
    rw [add_right_comm] at whole
    exact .inl (.tail' below whole)
  · rw [same, show Task.cores [] = 0 from rfl, add_zero] at below
    rcases Relation.reflTransGen_iff_eq_or_transGen.mp below with same | fewer
    · exact .inr ⟨same.symm, by simpa using less⟩
    · exact .inl fewer

theorem clock_of_turn (waits : Waits l) (had : l.turn n = some l') :
    l'.world.clock = l.world.clock := by
  obtain ⟨task, task', more, there, does, granted⟩ := turn_cases waits had
  exact does.clock

theorem less_of_step (waits : Waits l) (stepped : l.step = some l') :
    Less l.engine.policy l'.left l.left := by
  have turned {n : Nat} {l₁ : Launcher} (had : l.turn n = some l₁) (queue : List Nat) :
      Less l.engine.policy (left { l₁ with queue }) l.left := by
    rcases fewer_of_turn waits had with fewer | ⟨same, less⟩
    · exact .left _ _ fewer
    · unfold left
      dsimp only
      rw [same, clock_of_turn waits had]
      exact .right _ (.right _ (.left _ _ less))
  cases step_cases waits stepped with
  | passes queue stuck =>
    unfold left
    rw [queue]
    exact .right _ (.right _ (.right _ (Nat.lt_succ_self _)))
  | turns queue had => exact turned had _
  | yields queue there moved off called had => exact turned had _

end Launcher

namespace Clockwork

variable {σ μ : Type} {m : Clockwork σ} {P : σ → Prop} {nearer : μ → μ → Prop}

/-- A system that every step brings nearer to an end comes to rest. -/
theorem settleWithin_rests (wf : WellFounded nearer) (measure : σ → μ)
    (step : ∀ s s', P s → m.step s = some s' → P s' ∧ nearer (measure s') (measure s)) {s : σ}
    (h : P s) : ∃ n, ∀ fuel, n ≤ fuel → m.step (m.settleWithin fuel s) = none := by
  induction measured : measure s using wf.induction generalizing s with
  | _ _ ih =>
    subst measured
    cases stepped : m.step s with
    | none =>
      refine ⟨0, fun fuel _ => ?_⟩
      cases fuel with
      | zero => exact stepped
      | succ fuel => rw [settleWithin, stepped, stepped]
    | some s' =>
      obtain ⟨h', less⟩ := step s s' h stepped
      obtain ⟨n, rests⟩ := ih _ less h' rfl
      refine ⟨n + 1, fun fuel enough => ?_⟩
      obtain ⟨fuel, rfl⟩ : ∃ k, fuel = k + 1 := ⟨fuel - 1, by omega⟩
      rw [settleWithin, stepped]
      exact rests fuel (by omega)

end Clockwork

namespace Launcher

variable {l l' : Launcher}

/-- A launcher comes to rest without any time going on. -/
theorem settles (sound : Sound l) :
    ∃ n, ∀ fuel, n ≤ fuel → (clockwork.settleWithin fuel l).step = none := by
  refine Clockwork.settleWithin_rests (m := clockwork)
    (P := fun l' => l'.engine = l.engine ∧ Sound l') (wf_less l.engine.policy) left
    (fun l₁ l₂ so stepped => ?_) ⟨rfl, sound⟩
  obtain ⟨same, sound⟩ := so
  have leads := (leads_step stepped).1
  exact ⟨⟨(leads.evolves sound).engine.trans same, sound.leads leads⟩,
    same ▸ less_of_step sound.waits stepped⟩

end Launcher

end PipelineRunner
