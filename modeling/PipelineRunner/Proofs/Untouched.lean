import PipelineRunner.Proofs.Overtaking
import PipelineRunner.Proofs.Signatures
import PipelineRunner.Proofs.TailedLogs

/-! What has not begun leaves no trace. Each record of a turn stands at a place of the workflow whose
turn it is, and no turn before the beginning of a workflow records anything; so nothing is recorded
in the name of a workflow that has not begun, and nobody but a plugin that speaks for others logs
anything for it. -/

namespace PipelineRunner

/-- A record stands at a place of a workflow, or is a call that carries its identifier. -/
def Record.Carries (id : String) (r : Record) : Prop :=
  r.place.workflow = id ∨
    match r.event with
    | .called _ _ params _ => params.get? workflowKey = some id
    | _ => False

theorem Record.SignedBy.not_carries {own id : String} {r : Record} (signed : r.SignedBy own)
    (other : id ≠ own) : ¬r.Carries id := by
  obtain ⟨time, place, event⟩ := r
  obtain ⟨rfl, signed⟩ := signed
  rintro (here | carried)
  · exact other here.symm
  · cases event with
    | called =>
      obtain rfl := Option.some.inj (signed.symm.trans carried)
      exact other rfl
    | _ => exact carried

theorem Properties.workflowId_insert {id : String} (some_ : id ≠ "") (properties : Properties) :
    workflowId (OrderedMap.insert workflowKey (.string id) properties) = .ok id := by
  simp [workflowId, Launcher.lookup_insert, some_]

theorem Cleanup.signs_step {runtime : ContainerRuntime} {c c' : Cleanup} {w w' : World}
    (stepped : c.step runtime w = some (w', c')) : w.Signs "" w' := by
  have followed {progress : World × Progress (Except Cause Unit)} (h : w.Signs "" progress.1)
      (follows : c.follow progress = (w', c')) : w.Signs "" w' := by
    obtain ⟨w₁, progress⟩ := progress
    cases progress <;> cases follows
    · exact h.trans (World.signs_note rfl)
    · exact h
    · exact h
  rcases follow_of_step stepped with ⟨-, begun⟩ | ⟨wait, -, went_on⟩
  · have noted : w.Signs "" (w.note {} (.stop c.container)) := World.signs_note rfl
    exact followed (noted.trans (World.signs_perform rfl _ _)) begun
  · exact followed (World.signs_perform rfl _ _) went_on

namespace Task

variable {engine : Engine} {w w' : World} {task task' : Task} {more : List Task}

/-- The execution of a task that is under way is that of its workflow. -/
def Signed : Task → Prop
  | workflow _ .over _ => True
  | workflow id _ e => e.Signed id
  | cleanup _ => True

/-- What a turn records is in the name of the workflow of its task, or of nobody if it is a cleanup;
nothing is recorded before the beginning. -/
theorem Does.signs (does : Does engine w task w' task' more) (signed : task.Signed) :
    task'.Signed ∧ (∀ t ∈ more, t.Signed) ∧
      ((∃ id a e, task = workflow id a e ∧ w.Signs id w' ∧ (task'.hasBegun = false → w' = w)) ∨
        ∃ c, task = cleanup c ∧ w.Signs "" w') := by
  have through {e : Execution} {result : Except ExecutionError Report} (ended : e.phase = .over result)
      (id : String) (w : World) : (workflow id .over (e.enter id .done w).2).hasBegun = true := by
    simp [hasBegun, Execution.isFresh, Execution.enter, ended]
  cases does with
  | waits id e => exact ⟨signed, by simp, .inl ⟨id, _, e, rfl, .still rfl, fun _ => rfl⟩⟩
  | enters id e => exact ⟨signed, by simp, .inl ⟨id, _, e, rfl, .still rfl, fun _ => rfl⟩⟩
  | succeeds id e report ended =>
    refine ⟨trivial, by simp, .inl ⟨id, _, e, rfl, Execution.enter_signs _, fun unbegun => ?_⟩⟩
    rw [through ended] at unbegun
    cases unbegun
  | fails id e error ended =>
    refine ⟨trivial, by simp, .inl ⟨id, _, e, rfl, ?_, fun unbegun => ?_⟩⟩
    · exact (World.signs_log rfl _ _ _).trans (Execution.enter_signs _)
    · rw [through ended] at unbegun
      cases unbegun
  | goes id e moved =>
    have signs : (e.step engine w).Signs id w (Execution.Signed id) := Execution.step_signs signed
    rw [moved] at signs
    refine ⟨signs.2, by simp, .inl ⟨id, _, e, rfl, signs.1, fun unbegun => ?_⟩⟩
    -- Before the beginning a step only calls for the first turn.
    rcases Execution.step_moved moved with ⟨after, rota, turned, rfl⟩ | ⟨rfl, -⟩
    · have begun := Launcher.unfresh_of_move turned
      have fresh : after.phase = .fresh := by
        simpa [hasBegun, Execution.isFresh_iff] using unbegun
      exact absurd fresh begun
    · rfl
  | breaks id e crashed =>
    have signs : (e.step engine w).Signs id w (Execution.Signed id) := Execution.step_signs signed
    rw [crashed] at signs
    refine ⟨trivial, fun t mem => ?_, .inl ⟨id, _, e, rfl, signs, fun unbegun => ?_⟩⟩
    · obtain ⟨container, -, rfl⟩ := List.mem_map.mp mem
      trivial
    · cases unbegun
  | cleans c stepped =>
    exact ⟨trivial, by simp, .inr ⟨c, rfl, Cleanup.signs_step stepped⟩⟩

theorem Does.cleanups (does : Does engine w task w' task' more) :
    ∀ t ∈ more, ∃ container, t = cleanup { container } := by
  cases does with
  | breaks id e crashed =>
    intro t mem
    obtain ⟨container, -, rfl⟩ := List.mem_map.mp mem
    exact ⟨container, rfl⟩
  | _ => simp

theorem Does.origin {id : String} {a : Admission} {e : Execution}
    (does : Does engine w task w' (workflow id a e) more) : ∃ a' e', task = workflow id a' e' := by
  generalize same : workflow id a e = task' at does
  cases does <;> cases same <;> exact ⟨_, _, rfl⟩

theorem signed_wake (task : Task) (signed : task.Signed) :
    (Launcher.wake engine w task).Signed := by
  cases task with
  | cleanup c => trivial
  | workflow id a e =>
    obtain ⟨rota, woken⟩ := Launcher.wake_workflow engine w id a e
    rw [woken]
    cases a <;> exact signed

theorem Granted.signed (granted : Granted task task') (signed : task.Signed) : task'.Signed := by
  cases granted <;> exact signed

end Task

namespace Launcher

variable {l l' : Launcher} {n : Nat} {id : String} {passes : Launcher → Nat → Prop}

/-- Each task carries out its own workflow, and no two the same. -/
structure Named (l : Launcher) : Prop where
  signed : ∀ task ∈ l.tasks, task.Signed
  named : ∀ id a e, Task.workflow id a e ∈ l.tasks → id ≠ ""
  distinct : ∀ (m n : Nat) id a b e e', l.tasks[m]? = some (.workflow id a e) →
    l.tasks[n]? = some (.workflow id b e') → m = n

namespace Named

theorem of_origin (named : l.Named) (signed : ∀ task ∈ l'.tasks, task.Signed)
    (origin : ∀ (m : Nat) id a e, l'.tasks[m]? = some (.workflow id a e) →
      ∃ a' e', l.tasks[m]? = some (.workflow id a' e')) : l'.Named := by
  refine ⟨signed, fun id a e mem => ?_, fun m n id a b e e' hm hn => ?_⟩
  · obtain ⟨m, here⟩ := List.mem_iff_getElem?.mp mem
    obtain ⟨a', e', there⟩ := origin m id a e here
    exact named.named id a' e' (List.mem_of_getElem? there)
  · obtain ⟨a', e₁, hm⟩ := origin m id a e hm
    obtain ⟨b', e₂, hn⟩ := origin n id b e' hn
    exact named.distinct m n id a' b' e₁ e₂ hm hn

theorem of_same (named : l.Named) (tasks : l'.tasks = l.tasks) : l'.Named :=
  named.of_origin (tasks ▸ named.signed) fun _ _ a e here => ⟨a, e, tasks ▸ here⟩

theorem turn (named : l.Named) (waits : Waits l) (had : l.turn n = some l') : l'.Named := by
  obtain ⟨task, task', more, there, does, granted⟩ := turn_cases waits had
  obtain ⟨signed', others, -⟩ := does.signs (named.signed task (List.mem_of_getElem? there))
  have cleanups := does.cleanups
  refine named.of_origin (fun new mem => ?_) fun m id a e new => ?_
  · obtain ⟨m, here⟩ := List.mem_iff_getElem?.mp mem
    rcases tasks_backward granted cleanups here with ⟨old, before, granted⟩ | ⟨container, rfl⟩
    · refine granted.signed ?_
      split
      · exact signed'
      · exact named.signed old (List.mem_of_getElem? before)
    · trivial
  · rcases tasks_backward granted cleanups new with ⟨old, here, granted⟩ | ⟨container, cleanup⟩
    · by_cases mine : n = m
      · subst mine
        rw [if_pos rfl] at granted
        obtain ⟨a₁, e₁, rfl⟩ : ∃ a₁ e₁, task' = .workflow id a₁ e₁ := by
          cases granted <;> exact ⟨_, _, rfl⟩
        obtain ⟨a₂, e₂, rfl⟩ := does.origin
        exact ⟨a₂, e₂, there⟩
      · rw [if_neg mine] at granted
        cases granted <;> exact ⟨_, _, here⟩
    · cases cleanup

theorem moveTo (named : l.Named) (t : Nat) : (l.moveTo t).Named := by
  refine named.of_origin (fun task mem => ?_) fun m id a e here => ?_
  · obtain ⟨task, before, rfl⟩ := List.mem_map.mp
      ((show (l.moveTo t).tasks = l.tasks.map _ from rfl) ▸ mem)
    exact task.signed_wake (named.signed task before)
  · rw [InLine.getElem?_moveTo, Option.map_eq_some_iff] at here
    obtain ⟨task, there, woken⟩ := here
    cases task with
    | cleanup c => cases woken
    | workflow id' a' e' =>
      obtain ⟨rota, same⟩ := wake_workflow l.engine { l.world with clock := t } id' a' e'
      cases same.symm.trans woken
      exact ⟨_, e', there⟩

theorem submit (named : l.Named) {id : String} (new : l.IsNew id) (source : String)
    (properties : Properties) : (l.submit id source properties).1.Named := by
  cases parsed : Script.parse source with
  | error error =>
    rw [submit_error properties parsed]
    exact named
  | ok pipeline =>
    rw [submit_ok properties parsed]
    refine ⟨fun task mem => ?_, fun id' a e mem => ?_, fun m n id' a b e e' hm hn => ?_⟩
    · rcases List.mem_append.mp mem with mem | mem
      · exact named.signed task mem
      · rw [List.mem_singleton.mp mem]
        exact ⟨Properties.workflowId_insert new.1 properties, trivial⟩
    · rcases List.mem_append.mp mem with mem | mem
      · exact named.named id' a e mem
      · cases List.mem_singleton.mp mem
        exact new.1
    · rcases workflow_append hm with hm | ⟨rfl, rfl⟩ <;>
        rcases workflow_append hn with hn | ⟨rfl, same⟩
      · exact named.distinct m n id' a b e e' hm hn
      · exact absurd (List.mem_of_getElem? hm) (same ▸ new.2 a e)
      · exact absurd (List.mem_of_getElem? hn) (new.2 b e')
      · rfl

theorem named_new (engine : Engine) (world : World) (maxParallel : Nat) :
    (new engine world maxParallel).Named := by
  refine ⟨?_, ?_, ?_⟩ <;> simp [new]

end Named

theorem Proceeds.named (proceeds : Proceeds passes l l') (waits : Waits l) (named : l.Named) :
    l'.Named := by
  cases proceeds with
  | step stepped =>
    cases step_cases waits stepped with
    | passes => exact named.of_same rfl
    | turns queue had => exact named.turn waits had
    | yields queue there moved off called had =>
      exact Named.of_same (named.turn waits had) rfl
  | time t => exact named.moveTo t
  | submit id source properties new => exact named.submit new source properties
  | claim | take => exact named.of_same rfl
  | remove id =>
    obtain ⟨workflows, logs, removed⟩ := @remove_still l id
    rw [removed]
    exact named.of_same rfl

/-! ### No trace -/

/-- No workflow with this identifier has begun. -/
def Unbegun (l : Launcher) (id : String) : Prop :=
  ∀ (n : Nat) a e, l.tasks[n]? = some (.workflow id a e) → l.hasBegun n = false

theorem Evolves.workflow (evolves : Evolves l l') {a : Admission} {e : Execution}
    (there : l.tasks[n]? = some (.workflow id a e)) :
    ∃ a' e', l'.tasks[n]? = some (.workflow id a' e') := by
  obtain ⟨task', there', becomes⟩ := evolves.tasks n _ there
  obtain ⟨a', e', rfl⟩ := becomes.workflow
  exact ⟨a', e', there'⟩

theorem Unbegun.earlier (unbegun : l'.Unbegun id) (evolves : Evolves l l') : l.Unbegun id := by
  intro n a e there
  refine Bool.eq_false_iff.mpr fun begun => ?_
  obtain ⟨a', e', there'⟩ := evolves.workflow there
  exact absurd (evolves.hasBegun begun) (by simp [unbegun n a' e' there'])

/-- A turn of a task in which its workflow has not begun changes nothing. -/
theorem still_of_unbegun (named : l.Named) (sound : l.Sound) (had : l.turn n = some l')
    {a : Admission} {e : Execution} (there : l.tasks[n]? = some (.workflow id a e))
    (unbegun : l'.hasBegun n = false) : l'.world = l.world := by
  obtain ⟨task, task', more, there', does, granted⟩ := turn_cases sound.waits had
  obtain rfl := Option.some.inj (there.symm.trans there')
  obtain ⟨-, -, signs⟩ := does.signs (named.signed _ (List.mem_of_getElem? there))
  obtain ⟨new, now, granted⟩ := tasks_forward granted there
  rw [if_pos rfl] at granted
  rw [hasBegun, now, Option.any_some] at unbegun
  have kept : task'.hasBegun = false := by
    cases granted <;> exact unbegun
  rcases signs with ⟨_, _, _, -, -, still⟩ | ⟨c, cleanup, -⟩
  · exact still kept
  · cases cleanup

/-- Nothing is recorded in the name of a workflow that has not begun. -/
def Untold (l : Launcher) : Prop :=
  ∀ id, id ≠ "" → l.Unbegun id → ∀ r ∈ l.world.history, ¬r.Carries id

theorem Untold.turn (untold : l.Untold) (named : l.Named) (sound : l.Sound)
    (had : l.turn n = some l') : l'.Untold := by
  intro id some_ unbegun r mem
  have evolves := (evolves_turn sound.waits had).1
  have before := untold id some_ (unbegun.earlier evolves)
  obtain ⟨task, task', more, there, does, granted⟩ := turn_cases sound.waits had
  obtain ⟨-, -, signs⟩ := does.signs (named.signed task (List.mem_of_getElem? there))
  have others {own : String} (other : id ≠ own) (signs : l.world.Signs own l'.world) :
      ¬r.Carries id := by
    obtain ⟨news, history, signed⟩ := signs
    rw [history, List.mem_append, List.mem_reverse] at mem
    exact mem.elim (fun mem => (signed r mem).not_carries other) (before r)
  rcases signs with ⟨own, a, e, rfl, signs, -⟩ | ⟨c, rfl, signs⟩
  · by_cases mine : id = own
    · subst mine
      obtain ⟨a', e', there'⟩ := evolves.workflow there
      rw [still_of_unbegun named sound had there (unbegun n a' e' there')] at mem
      exact before r mem
    · exact others mine signs
  · exact others some_ signs

theorem Proceeds.untold (proceeds : Proceeds passes l l') (sound : l.Sound) (named : l.Named)
    (untold : l.Untold) : l'.Untold := by
  have evolves := proceeds.leads.evolves sound
  have still (history : l'.world.history = l.world.history) : l'.Untold := by
    intro id some_ unbegun
    rw [history]
    exact untold id some_ (unbegun.earlier evolves)
  cases proceeds with
  | step stepped =>
    cases step_cases sound.waits stepped with
    | passes => exact still rfl
    | turns queue had => exact untold.turn named sound had
    | yields queue there moved off called had =>
      have turned := untold.turn named sound had
      exact turned
  | time | claim | take => exact still rfl
  | submit id source properties =>
    exact still (by rw [submit_world])
  | remove id =>
    refine still ?_
    obtain ⟨workflows, logs, removed⟩ := @remove_still l id
    rw [removed]

/-- Nothing is logged for a workflow that has not begun. -/
def Unlogged (l : Launcher) : Prop :=
  ∀ id, l.Unbegun id → l.world.logs.entries id = [] ∧ ∀ r ∈ l.world.history, ¬r.IsEntry id

theorem Unlogged.turn (unlogged : l.Unlogged) (keeps : l.Keeps) (named : l.Named) (sound : l.Sound)
    (had : l.turn n = some l') : l'.Unlogged := by
  intro id unbegun
  obtain ⟨blank, before⟩ := unlogged id (unbegun.earlier (evolves_turn sound.waits had).1)
  obtain ⟨task, task', more, there, does, granted⟩ := turn_cases sound.waits had
  have minds := keeps.minds task (List.mem_of_getElem? there)
  have silent {news : List Record} (history : l'.world.history = news.reverse ++ l.world.history)
      (logs : l'.world.logs = writeAll l.world.logs news) (others : ∀ r ∈ news, ¬r.IsEntry id) :
      l'.world.logs.entries id = [] ∧ ∀ r ∈ l'.world.history, ¬r.IsEntry id := by
    refine ⟨?_, fun r mem => ?_⟩
    · rw [logs, LogBuffer.entries_writeAll, blank, entriesOf_eq_nil.mpr others, List.append_nil]
    · rw [history, List.mem_append, List.mem_reverse] at mem
      exact mem.elim (others r) (before r)
  rcases does.writes minds keeps.discreet keeps.silent with
    ⟨own, a, e, a', e', rfl, -, -, news, history, logs, concern, -⟩ |
    ⟨c, c', rfl, -, -, logs, news, history, outward⟩
  · by_cases mine : id = own
    · subst mine
      obtain ⟨a₁, e₁, there'⟩ := (evolves_turn sound.waits had).1.workflow there
      rw [still_of_unbegun named sound had there (unbegun n a₁ e₁ there')]
      exact ⟨blank, before⟩
    · exact silent history logs fun r mem => (concern r mem).not_entry mine
  · have quiet := World.of_outward outward
    refine silent history (logs.trans (quiet "" .done _).2.1.symm) ?_
    exact (quiet id .done []).2.2.2

theorem Proceeds.keeps (proceeds : Proceeds passes l l') (keeps : l.Keeps) : l'.Keeps := by
  have other (id : String) : ∃ id', id ≠ id' := by
    by_cases none_ : id = ""
    · exact ⟨"x", by simp [none_]⟩
    · exact ⟨"", none_⟩
  have requeued {l : Launcher} (keeps : l.Keeps) (queue : List Nat) :
      ({ l with queue } : Launcher).Keeps := keeps.aside (Aside.queued queue : Aside "" l _)
  cases proceeds with
  | step stepped =>
    cases step_cases keeps.waits stepped with
    | passes => exact requeued keeps _
    | turns queue had => exact (keeps.turn had).choose_spec.2
    | yields queue there moved off called had =>
      exact requeued (keeps.turn had).choose_spec.2 _
  | time t => exact keeps.aside (Aside.time t : Aside "" l _)
  | submit id source properties new => exact keeps.submit source properties new.2
  | claim id => exact keeps.aside (Aside.claim id : Aside "" l _)
  | take id =>
    obtain ⟨_, different⟩ := other id
    exact keeps.aside (.take id different)
  | remove id =>
    obtain ⟨_, different⟩ := other id
    exact keeps.aside (.remove id different)

theorem Proceeds.unlogged (proceeds : Proceeds passes l l') (sound : l.Sound) (named : l.Named)
    (keeps : l.Keeps) (unlogged : l.Unlogged) : l'.Unlogged := by
  have evolves := proceeds.leads.evolves sound
  have still (history : l'.world.history = l.world.history)
      (logs : ∀ id, l.world.logs.entries id = [] → l'.world.logs.entries id = []) :
      l'.Unlogged := by
    intro id unbegun
    obtain ⟨blank, before⟩ := unlogged id (unbegun.earlier evolves)
    exact ⟨logs id blank, by rw [history]; exact before⟩
  cases proceeds with
  | step stepped =>
    cases step_cases sound.waits stepped with
    | passes => exact still rfl fun _ blank => blank
    | turns queue had => exact unlogged.turn keeps named sound had
    | yields queue there moved off called had =>
      have turned := unlogged.turn keeps named sound had
      exact turned
  | time | claim => exact still rfl fun _ blank => blank
  | submit id source properties =>
    refine still (by rw [submit_world]) fun other blank => ?_
    rwa [submit_world]
  | take other =>
    refine still rfl fun id blank => ?_
    by_cases same : id = other
    · exact same ▸ LogBuffer.entries_drain_self
    · exact (LogBuffer.entries_drain_of_ne same).trans blank
  | remove other =>
    refine still ?_ fun id blank => ?_
    · obtain ⟨workflows, logs, removed⟩ := @remove_still l other
      rw [removed]
    · unfold Launcher.remove
      split
      · by_cases same : id = other
        · exact same ▸ LogBuffer.entries_remove_self
        · exact (LogBuffer.entries_remove_of_ne same).trans blank
      · exact blank

end Launcher

end PipelineRunner
