import PipelineRunner.Proofs.RootCause
import PipelineRunner.Proofs.StepCourses

/-! What a stage settles with. Its own steps follow when all of its branches have settled well; its
output is made of theirs and of what its own steps leave, and each part is missing exactly where
the stage has none or did not come to it. -/

namespace PipelineRunner.StageRun

/-- In these turns a stage has settled, with this output and this failure. -/
def SettledAs (past : List Moment) (output : StageOutput) (outcome : Option StepError) : Prop :=
  ∃ m ∈ past, m.after = settled output outcome

/-- A turn in which a step comes back with an error. -/
def Moment.Errs (m : Moment) (e : StepError) : Prop :=
  ∃ c w w' stage agent branches own, m.before = working stage agent branches own ∧
    own.Errs c w e ∧ m.before.move c w m.path = .moved w' m.after

/-- In these turns a step has come back with an error. -/
def Erred (past : List Moment) (e : StepError) : Prop := ∃ m ∈ past, m.Errs e

/-- All branches of a stage have settled without a failure. -/
def BranchesSucceeded (stage : Stage) (past : List Moment) : Prop :=
  ∀ i < stage.parallel.length, ∃ output, SettledAs (within i past) output none

/-- The outputs that the branches of a stage have settled with, in their order. -/
structure Gathered (stage : Stage) (past : List Moment) (outputs : List StageOutput) : Prop where
  length : outputs.length = stage.parallel.length
  each : ∀ i output, outputs[i]? = some output →
    ∃ outcome, SettledAs (within i past) output outcome

/-- What branches contribute to the output of a stage that has come to its own steps. -/
inductive Contributed (stage : Stage) (past : List Moment) : Option StageResults → Prop where
  | nothing (alone : stage.parallel = []) : Contributed stage past none
  | results {outputs : List StageOutput} (branches : stage.parallel ≠ [])
      (gathered : Gathered stage past outputs) (succeeded : BranchesSucceeded stage past) :
      Contributed stage past (some (resultsOf stage.parallel outputs))

/-- What a stage may settle with, by its turns and by what has been noted at its place. -/
inductive Yields (stage : Stage) (agent : Agent) (past : List Moment) (noted : List Event) :
    StageOutput → Option StepError → Prop where
  /-- A branch has failed, and the own steps are not come to. -/
  | branchFailed {outputs : List StageOutput} {e : StepError} {i : Nat} {output : StageOutput}
      (gathered : Gathered stage past outputs)
      (failed : SettledAs (within i past) output (some e)) :
      Yields stage agent past noted (.ofParts (some (resultsOf stage.parallel outputs)) none)
        (some e)
  /-- There are no steps. -/
  | stepless {branches : Option StageResults} (bare : stage.steps = [])
      (contributed : Contributed stage past branches) :
      Yields stage agent past noted (.ofParts branches none) none
  /-- The own steps have been recorded; without its container a stage has run none. -/
  | worked {branches : Option StageResults} {outputs : List String} {failure : Option StepError}
      (steps : stage.steps ≠ []) (contributed : Contributed stage past branches)
      (recorded : Recorded stage noted (Erred past) outputs failure)
      (homeless : agent.image?.isSome = true →
        (∀ image id, .started image id ∉ noted) → outputs = []) :
      Yields stage agent past noted (.ofParts branches (some outputs)) failure

variable {stage : Stage} {inherited agent : Agent} {c : Context} {past : List Moment}
  {run run' : StageRun} {w w' : World} {path : List Nat} {news : List Record} {m : Moment}
  {noted : List Event} {output : StageOutput} {outcome : Option StepError} {i : Nat}
  {e : StepError} {branches : Option StageResults} {own own' : OwnSteps}

/-! ### Turns that have been had stay -/

theorem SettledAs.later (h : SettledAs past output outcome) (more : List Moment) :
    SettledAs (past ++ more) output outcome := by
  obtain ⟨m, mem, after⟩ := h
  exact ⟨m, List.mem_append_left _ mem, after⟩

theorem SettledAs.within_later (h : SettledAs (within i past) output outcome) (m : Moment) :
    SettledAs (within i (past ++ [m])) output outcome := by
  rw [within_concat]
  exact h.later _

theorem Gathered.later {outputs : List StageOutput} (h : Gathered stage past outputs)
    (m : Moment) : Gathered stage (past ++ [m]) outputs :=
  ⟨h.length, fun i output there => (h.each i output there).imp fun _ so => so.within_later m⟩

theorem Contributed.later (h : Contributed stage past branches) (m : Moment) :
    Contributed stage (past ++ [m]) branches := by
  cases h with
  | nothing alone => exact .nothing alone
  | results some gathered succeeded =>
    exact .results some (gathered.later m) fun i hi =>
      (succeeded i hi).imp fun _ so => so.within_later m

theorem erred_concat : Erred (past ++ [m]) e ↔ Erred past e ∨ m.Errs e := by
  simp [Erred, or_and_right, exists_or]

/-! ### Settling -/

theorem Run.last (so : Run stage inherited c past run) :
    run = fresh stage inherited ∨ ∃ m ∈ past, m.after = run := by
  induction so with
  | begins c => exact .inl rfl
  | cancelled so ih => exact ih
  | turn so moved noted ih =>
    exact .inr ⟨_, List.mem_append_right _ (List.mem_singleton_self _), rfl⟩

theorem Run.settledAs (so : Run stage inherited c past (settled output outcome)) :
    SettledAs past output outcome :=
  so.last.resolve_left (by simp)

theorem Run.settled_of_settledAs (so : Run stage inherited c past run)
    (h : SettledAs past output outcome) : run = settled output outcome := by
  induction so with
  | begins c =>
    obtain ⟨m, mem, -⟩ := h
    cases mem
  | cancelled so ih => exact ih h
  | turn so moved noted ih =>
    obtain ⟨m, mem, after⟩ := h
    rcases List.mem_append.mp mem with earlier | last
    · rw [ih ⟨m, earlier, after⟩] at moved
      cases turned_of_move moved
    · obtain rfl := List.mem_singleton.mp last
      exact after

/-! ### Errors of steps -/

/-- A turn that tells of an error of a step breaks the own steps off. -/
theorem Moment.Errs.breaks (h : m.Errs e) : ∃ stage agent branches own own',
    m.before = working stage agent branches own ∧ m.after = working stage agent branches own' ∧
      own.Breaks e own' := by
  obtain ⟨c, w, w', stage, agent, branches, own, before, errs, moved⟩ := h
  obtain ⟨w₁, own', ho, breaks⟩ := errs.breaks stage agent
  refine ⟨stage, agent, branches, own, own', before, ?_, breaks⟩
  rw [before] at moved
  cases hp : m.path with
  | cons i path => simp [hp, move] at moved
  | nil =>
    simp only [hp, move, moveHere, ho, followSteps, Turn.moved.injEq] at moved
    exact moved.2.symm

/-- So does no other turn. -/
theorem errs_iff_breaks (moved : (working stage agent branches own).move c w path =
      .moved w' (working stage agent branches own')) :
    Moment.Errs ⟨path, working stage agent branches own, working stage agent branches own', news⟩ e
      ↔ own.Breaks e own' := by
  constructor
  · intro errs
    obtain ⟨_, _, _, _, _, before, after, breaks⟩ := errs.breaks
    cases before
    cases after
    exact breaks
  · intro breaks
    refine ⟨c, w, w', _, _, _, _, rfl, ?_, moved⟩
    cases path with
    | cons i path => cases moved
    | nil =>
      simp only [move, moveHere] at moved
      cases ho : own.move c stage agent w <;>
        simp only [ho, followSteps, reduceCtorEq, Turn.moved.injEq, working.injEq, and_false] at moved
      obtain ⟨-, -, -, -, rfl⟩ := moved
      exact (OwnSteps.errs_iff ho).mpr breaks

/-- Outside the own steps nothing is told of errors of steps. -/
theorem calm_concat (calm : ∀ e, ¬ Erred past e)
    (outside : ∀ stage agent branches own, m.before ≠ working stage agent branches own) :
    ∀ e, ¬ Erred (past ++ [m]) e := by
  intro e erred
  rcases erred_concat.mp erred with earlier | now
  · exact calm e earlier
  · obtain ⟨_, _, _, _, _, before, -⟩ := now.breaks
    exact outside _ _ _ _ before

/-- Neither is it at the end of the steps. -/
theorem erred_concat_settled (path : List Nat) (before : StageRun) (news : List Record) :
    Erred (past ++ [⟨path, before, settled output outcome, news⟩]) e ↔ Erred past e := by
  refine erred_concat.trans (or_iff_left fun now => ?_)
  obtain ⟨_, _, _, _, _, -, after, -⟩ := now.breaks
  cases after

/-! ### How a stage comes to its output -/

theorem Receipts.delivered_nil (h : Receipts noted) : delivered noted = [] := by
  refine List.filterMap_eq_nil_iff.mpr fun event mem => ?_
  obtain ⟨i, failed, rfl⟩ := h event mem
  rfl

/-- What a stage knows of its branches and its own steps as it has come so far. -/
def Faithful (stage : Stage) (agent : Agent) (workflow : String) (past : List Moment)
    (noted : List Event) : StageRun → Prop
  | fresh .. => ∀ e, ¬ Erred past e
  | joining _ _ runs failure =>
    stage.parallel ≠ [] ∧ (∀ e, ¬ Erred past e) ∧
      (∀ i output, runs[i]? = some (received output) →
        ∃ outcome, SettledAs (within i past) output outcome ∧ (failure = none → outcome = none)) ∧
      ∀ e, failure = some e → ∃ i output, SettledAs (within i past) output (some e)
  | working _ _ branches own =>
    stage.steps ≠ [] ∧ Contributed stage past branches ∧
      own.Course stage workflow noted (Erred past)
  | settled output outcome => Yields stage agent past noted output outcome
  | received _ => False

theorem faithful_ownSteps {workflow : String} (contributed : Contributed stage past branches)
    (calm : ∀ e, ¬ Erred past e) (silent : delivered noted = []) (around : Agent) :
    Faithful stage agent workflow past noted (ownSteps stage around branches) := by
  unfold ownSteps
  split
  next none => exact .stepless (List.isEmpty_iff.mp none) contributed
  next some => exact ⟨by simpa using some, contributed, silent, calm⟩

/-- Without a container that has come up, no step has been begun in one. -/
theorem homeless_of_ends {events : List Event} {result : StepsResult}
    (ends : own.Ends c agent events result)
    (custody : Custody stage agent c.place.workflow own noted)
    (docker : agent.image?.isSome = true)
    (none : ∀ image id, Event.started image id ∉ noted ++ events) : result.outputs = [] := by
  cases ends with
  | cancelled | unpulled | unstarted => rfl
  | host =>
    cases custody with
    | leaving open_ called =>
      cases open_ with
      | host bare => simp [bare] at docker
  | @stopped _ id _ _ stops =>
    obtain ⟨opened, calls, open_, -, so⟩ := custody.stops stops
    cases open_ with
    | @container image _ id =>
      refine absurd ?_ (none (Image.normalize image) id)
      rw [← List.append_assoc, so]
      simp [opening]

/-- What is noted by a turn of a stage at its own place. -/
theorem marksAt_concat {events : List Event} (notes : w.Notes c.place events w')
    (noted : w'.history = news.reverse ++ w.history) (before after : StageRun) :
    marksAt c.place (records (past ++ [⟨path, before, after, news⟩])) =
      marksAt c.place (records past) ++ events := by
  rw [records_concat, marksAt_append, notes.marksAt noted]

section

variable {workflow : String} {noted' : List Event} {around : Agent} {runs : List StageRun}
  {failure : Option StepError}

theorem faithful_enter (calm : ∀ e, ¬ Erred past e) (inherited : Agent) :
    Faithful stage (stage.effectiveAgent inherited) workflow past [] (enter stage inherited) := by
  unfold enter
  dsimp only
  split
  next alone => exact faithful_ownSteps (.nothing (List.isEmpty_iff.mp alone)) calm rfl _
  next branches =>
    refine ⟨by simpa using branches, calm, fun i output there => ?_, by simp⟩
    simp at there

/-- What a join has heard of its branches stays true. -/
theorem Faithful.later
    (h : Faithful stage agent workflow past noted (joining stage around runs failure))
    (outside : ∀ stage agent branches own, m.before ≠ working stage agent branches own) :
    Faithful stage agent workflow (past ++ [m]) noted' (joining stage around runs failure) := by
  obtain ⟨branches, calm, heard, failed⟩ := h
  refine ⟨branches, calm_concat calm outside, fun i output there => ?_, fun e he => ?_⟩
  · obtain ⟨outcome, settled, none⟩ := heard i output there
    exact ⟨outcome, settled.within_later m, none⟩
  · obtain ⟨i, output, failed⟩ := failed e he
    exact ⟨i, output, failed.within_later m⟩

/-- A join that has heard of all branches leaves with their outputs, or with the failure of one. -/
theorem faithful_leaveJoin {outputs : List StageOutput}
    (h : Faithful stage agent workflow past noted (joining stage around runs failure))
    (size : runs.length = stage.parallel.length) (all : outputs? runs = some outputs)
    (silent : delivered noted = []) :
    Faithful stage agent workflow past noted (leaveJoin stage around outputs failure) := by
  obtain ⟨branches, calm, heard, failed⟩ := h
  obtain rfl := outputs?_eq_some.mp all
  have gathered : Gathered stage past outputs :=
    ⟨by simpa using size, fun i output there =>
      (heard i output (by simp [there])).imp fun _ so => so.1⟩
  cases failure with
  | some e =>
    obtain ⟨i, output, failed⟩ := failed e rfl
    exact .branchFailed gathered failed
  | none =>
    have succeeded : BranchesSucceeded stage past := fun i hi => by
      have inside : i < outputs.length := gathered.length ▸ hi
      obtain ⟨outcome, settled, succeeds⟩ := heard i outputs[i] (by simp [inside])
      obtain rfl := succeeds rfl
      exact ⟨_, settled⟩
    exact faithful_ownSteps (.results branches gathered succeeded) calm silent _

theorem Faithful.hears
    (h : Faithful stage agent workflow past noted (joining stage around runs failure))
    (there : runs[i]? = some run) (settled : SettledAs (within i past) output outcome) :
    Faithful stage agent workflow past noted
      (joining stage around (runs.set i (received output)) (failure.or outcome)) := by
  obtain ⟨branches, calm, heard, failed⟩ := h
  refine ⟨branches, calm, fun j output' there' => ?_, fun e he => ?_⟩
  · by_cases hj : j = i
    · subst hj
      obtain rfl : output = output' := by simpa [set_there there] using there'
      exact ⟨outcome, settled, fun none => (Option.or_eq_none_iff.mp none).2⟩
    · obtain ⟨outcome', settled', none'⟩ := heard j output' (by simpa [Ne.symm hj] using there')
      exact ⟨outcome', settled', fun none => none' (Option.or_eq_none_iff.mp none).1⟩
  · cases failure with
    | some f => exact failed e (by simpa using he)
    | none =>
      obtain rfl : outcome = some e := by simpa using he
      exact ⟨i, output, settled⟩

/-- A branch that goes on is none that the join has heard of. -/
theorem Faithful.goesOn
    (h : Faithful stage agent workflow past noted (joining stage around runs failure))
    (there : runs[i]? = some run) (unheard : ∀ output, run' ≠ received output) :
    Faithful stage agent workflow past noted (joining stage around (runs.set i run') failure) := by
  obtain ⟨branches, calm, heard, failed⟩ := h
  refine ⟨branches, calm, fun j output there' => ?_, failed⟩
  by_cases hj : j = i
  · subst hj
    rw [set_there there] at there'
    exact absurd (Option.some.inj there') (unheard output)
  · exact heard j output (by simpa [Ne.symm hj] using there')

end

/-- A stage has come as far as its turns and its history tell. -/
theorem Run.faithful (so : Run stage inherited c past run) :
    run.Faithful stage (stage.effectiveAgent inherited) c.place.workflow past
      (marksAt c.place (records past)) := by
  induction so with
  | begins c => simp [Faithful, Erred]
  | cancelled so ih => exact ih
  | @turn c past run run' path w w' news so moved noted ih =>
    have shape := so.shape
    have traced := so.traced
    have silent : w.Notes c.place [] w := .nothing rfl
    cases turned_of_move moved with
    | enters =>
      obtain ⟨rfl, rfl⟩ := shape
      have idle : marksAt c.place (records past) = [] := traced
      rw [marksAt_concat silent noted, idle, List.append_nil]
      exact faithful_enter (calm_concat ih (by simp)) _
    | leaves all =>
      obtain ⟨rfl, rfl, size⟩ := shape
      rw [marksAt_concat silent noted, List.append_nil]
      exact faithful_leaveJoin (ih.later (by simp)) size all (Receipts.delivered_nil traced)
    | works notes goes =>
      obtain ⟨rfl, rfl⟩ := shape
      obtain ⟨steps, contributed, course⟩ := ih
      rw [marksAt_concat notes noted]
      refine ⟨steps, contributed.later _, goes.course course fun e => ?_⟩
      rw [erred_concat, errs_iff_breaks moved]
    | settles notes ends =>
      obtain ⟨rfl, rfl⟩ := shape
      obtain ⟨steps, contributed, course⟩ := ih
      obtain ⟨receipts, events, so_far, received, custody⟩ := traced
      rw [marksAt_concat notes noted]
      refine .worked steps (contributed.later _) ?_ fun docker none => ?_
      · have recorded := ends.course course
        exact ⟨fun none => recorded.plain (by simpa [erred_concat_settled] using none),
          fun e he => recorded.erring e ((erred_concat_settled _ _ _).mp he), recorded.complete⟩
      · refine homeless_of_ends ends custody docker fun image id mem => none image id ?_
        rw [so_far, List.append_assoc]
        exact List.mem_append_right _ mem
    | @receives _ _ runs failure i way output outcome there =>
      obtain ⟨rfl, rfl, size⟩ := shape
      have hb := List.getElem?_eq_getElem (size ▸ (List.getElem?_eq_some_iff.mp there).1)
      obtain ⟨failure', run, inner, holds⟩ := so.branch hb
      have settled : SettledAs (within i past) output outcome := by
        cases holds with
        | through through => cases through
        | heard earlier => simp [there] at earlier
        | underWay now =>
          obtain rfl := Option.some.inj (there.symm.trans now)
          exact inner.settledAs
      exact (ih.later (by simp)).hears there (settled.within_later _)
    | inside there unsettled inner =>
      obtain ⟨rfl, rfl, -⟩ := shape
      exact (ih.later (by simp)).goesOn there fun output => (unreceived_of_move inner output).2

end PipelineRunner.StageRun
