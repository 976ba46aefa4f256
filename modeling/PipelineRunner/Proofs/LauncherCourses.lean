import PipelineRunner.Proofs.WaitingLine

/-! Courses of a launcher: the first in the queue goes on, time passes, and whoever uses the launcher
asks for something. New workflows get new identifiers. Whatever is asked for one thing after the
other is such a course. -/

namespace PipelineRunner

/-- Whether a task is that of a workflow. -/
def Task.isOf (id : String) : Task → Bool
  | .workflow id' _ _ => id' == id
  | .cleanup _ => false

namespace Launcher

variable {l l' l'' : Launcher} {k n : Nat} {id : String} {e : Execution}
  {passes : Launcher → Nat → Prop}

/-- No workflow has this identifier, which is not empty. -/
def IsNew (l : Launcher) (id : String) : Prop :=
  id ≠ "" ∧ ∀ a e, Task.workflow id a e ∉ l.tasks

instance (l : Launcher) (id : String) : Decidable (l.IsNew id) :=
  decidable_of_iff (id ≠ "" ∧ ∀ task ∈ l.tasks, (!task.isOf id) = true) <| by
    refine and_congr_right fun _ => ⟨fun others a e mem => ?_, fun none_ task mem => ?_⟩
    · simpa [Task.isOf] using others _ mem
    · cases task with
      | cleanup c => rfl
      | workflow id' a e =>
        have other : id' ≠ id := fun same => none_ a e (same ▸ mem)
        simpa [Task.isOf] using other

/-- What happens next with a launcher. Time may pass to the instants of `passes`. -/
inductive Proceeds (passes : Launcher → Nat → Prop) (l : Launcher) : Launcher → Prop
  | step {l' : Launcher} (stepped : l.step = some l') : Proceeds passes l l'
  | time (t : Nat) (now : passes l t) : Proceeds passes l (l.moveTo t)
  | submit (id source : String) (properties : Properties) (new : l.IsNew id) :
      Proceeds passes l (l.submit id source properties).1
  | claim (id : String) : Proceeds passes l (l.claim id)
  | take (id : String) : Proceeds passes l (l.takeLogs id).1
  | remove (id : String) : Proceeds passes l (l.remove id).1

/-- What a launcher may come to. -/
abbrev Course (passes : Launcher → Nat → Prop) : Launcher → Launcher → Prop :=
  Relation.ReflTransGen (Proceeds passes)

/-- Time may pass at any moment. -/
abbrev anytime : Launcher → Nat → Prop := fun _ _ => True

/-- Who is removed leaves no trace but in the list of those that are known, and in the logs. -/
theorem remove_still (id : String) : ∃ workflows logs,
    (l.remove id).1 = { l with workflows, world := { l.world with logs } } := by
  unfold Launcher.remove
  split <;> exact ⟨_, _, rfl⟩

theorem Proceeds.leads (proceeds : Proceeds passes l l') : Leads l l' := by
  cases proceeds with
  | step stepped => exact (leads_step stepped).1
  | time t => exact .next .here (.time t)
  | submit id source properties => exact .next .here (.submit id source properties)
  | claim id => exact .next .here (.claim id)
  | take id => exact .next .here (.world _)
  | remove id => exact .next .here (.remove id)

theorem Course.leads (course : Course passes l l') : Leads l l' := by
  induction course with
  | refl => exact .here
  | tail course proceeds ih => exact ih.trans proceeds.leads

theorem Proceeds.inLine (proceeds : Proceeds passes l l') (inLine : l.InLine k) : l'.InLine k := by
  cases proceeds with
  | step stepped => exact inLine.step stepped
  | time t => exact inLine.moveTo t
  | submit id source properties => exact inLine.submit id source properties
  | claim id => exact inLine.of_same rfl rfl rfl rfl
  | take id => exact inLine.of_same rfl rfl rfl rfl
  | remove id =>
    obtain ⟨workflows, logs, removed⟩ := @remove_still l id
    rw [removed]
    exact inLine.of_same rfl rfl rfl rfl

theorem Course.inLine (course : Course passes l l') (inLine : l.InLine k) : l'.InLine k := by
  induction course with
  | refl => exact inLine
  | tail course proceeds ih => exact proceeds.inLine ih

/-! ### Requests -/

theorem course_run (reached : Launcher → Bool) (limit : Option Nat) :
    Course anytime l (clockwork.run reached limit l) :=
  Clockwork.run_preserves (m := clockwork) (P := Course anytime l)
    (fun _ _ stepped course => course.tail (.step stepped))
    (fun t _ _ _ _ course => course.tail (.time t trivial)) limit .refl

theorem course_settleWithin (turns : Nat) : Course passes l (clockwork.settleWithin turns l) :=
  Clockwork.settleWithin_preserves (m := clockwork) (P := Course passes l)
    (fun _ _ stepped course => course.tail (.step stepped)) turns .refl

theorem course_waitUntil (reached : Launcher → Bool) (limit : Nat) :
    Course anytime l (l.waitUntil reached limit).1 := by
  unfold waitUntil
  dsimp only
  split
  · exact .refl
  split
  · exact course_run _ _
  · exact (course_run _ _).tail (.time _ trivial)

theorem course_claim_wait (id : String) (limit : Nat) :
    l.wait id limit = (l, (l.wait id limit).2) ∨
      Course anytime (l.claim id) (l.wait id limit).1 := by
  unfold wait
  split
  · exact .inl rfl
  split
  · exact .inl rfl
  · exact .inr (course_waitUntil _ limit)

/-- What is submitted has a new identifier. -/
def Request.IsNew (l : Launcher) : Request → Prop
  | .submit id _ _ => l.IsNew id
  | _ => True

instance (l : Launcher) : (request : Request) → Decidable (request.IsNew l)
  | .submit id _ _ => inferInstanceAs (Decidable (l.IsNew id))
  | .logs _ | .remove _ | .wait .. | .waitDone .. | .sleep _ | .settle =>
    inferInstanceAs (Decidable True)

/-- All that is submitted, one thing after the other, has a new identifier. -/
def AllNew (l : Launcher) : List Request → Prop
  | [] => True
  | request :: rest => request.IsNew l ∧ (l.serve request).AllNew rest

instance decidableAllNew (l : Launcher) : (requests : List Request) → Decidable (l.AllNew requests)
  | [] => inferInstanceAs (Decidable True)
  | request :: rest =>
    have := decidableAllNew (l.serve request) rest
    inferInstanceAs (Decidable (request.IsNew l ∧ (l.serve request).AllNew rest))

/-- Whatever a launcher is asked for is a course. -/
theorem course_serve {request : Request} (new : request.IsNew l) :
    Course anytime l (l.serve request) := by
  cases request with
  | submit id source properties => exact .single (.submit id source properties new)
  | logs id => exact .single (.take id)
  | remove id => exact .single (.remove id)
  | wait id limit =>
    rcases @course_claim_wait l id limit with same | course
    · change Course anytime l (l.wait id limit).1
      rw [same]
    · exact Relation.ReflTransGen.head (.claim id) course
  | waitDone id limit =>
    change Course anytime l (l.waitDone id limit).1
    unfold waitDone
    split
    · exact .refl
    · exact course_waitUntil _ limit
  | sleep milliseconds =>
    change Course anytime l (l.sleep milliseconds)
    unfold sleep
    split
    · exact .refl
    · exact (course_run _ _).tail (.time _ trivial)
  | settle => exact course_settleWithin _

theorem course_foldl_serve {requests : List Request} (new : l.AllNew requests) :
    Course anytime l (requests.foldl serve l) := by
  induction requests generalizing l with
  | nil => exact .refl
  | cons request rest ih => exact (course_serve new.1).trans (ih new.2)

end Launcher

end PipelineRunner
