import PipelineRunner.Proofs.ExecutionRuns
import PipelineRunner.Proofs.OwnStepsRuns

/-! Why a pipeline has failed. A failing branch cancels the branches beside it, so that a join comes
to see errors which only tell of that. It reports the failure that it has received first, and
nothing cancels a branch before that, so that the cause survives every join on its way up. -/

namespace PipelineRunner

theorem Stage.sizeOf_branch_lt {stage branch : Stage} {i : Nat}
    (h : stage.parallel[i]? = some branch) : sizeOf branch < sizeOf stage := by
  have within := List.sizeOf_lt_of_mem (List.mem_of_getElem? h)
  cases stage
  simp only [Stage.mk.sizeOf_spec] at within ⊢
  omega

namespace StageRun

/-- That a join takes notice of how a branch has ended. -/
def Moment.notice? (m : Moment) : Option (Nat × Option StepError) :=
  match m.path, m.before with
  | i :: _, joining _ _ runs _ =>
    match runs[i]? with
    | some (settled _ outcome) => some (i, outcome)
    | _ => none
  | _, _ => none

/-- The branches that a join has received, in that order, each with what it had settled with. -/
def notices (past : List Moment) : List (Nat × Option StepError) := past.filterMap (·.notice?)

/-- The failure that was received first. -/
def firstFailure (seen : List (Nat × Option StepError)) : Option StepError := seen.findSome? (·.2)

/-- Whether branches are under way. -/
def isJoining : StageRun → Bool
  | joining .. => true
  | _ => false

/-- What a join is to come to, after what it has seen. -/
structure Joined (stage : Stage) (seen : List (Nat × Option StepError)) (result : StageRun) :
    Prop where
  /-- No branch is received twice. -/
  once : (seen.map (·.1)).Nodup
  /-- All branches have been received. -/
  all : ∀ i, i ∈ seen.map (·.1) ↔ i < stage.parallel.length
  /-- The join fails exactly if a branch has failed. -/
  fails : (∃ output e, result = settled output (some e)) ↔ ∃ i e, (i, some e) ∈ seen
  /-- Its failure is the one that was received first. -/
  first : ∀ output e, result = settled output (some e) → firstFailure seen = some e

/-- A turn in which a stage ends with an error that its own steps have come to by themselves. -/
def Moment.Strikes (stage : Stage) (agent : Agent) (e : StepError) (m : Moment) : Prop :=
  ∃ branches own output, m.before = working stage agent branches own ∧
    m.after = settled output (some e) ∧ e.ComesFrom stage agent

/-- An error that has come up by itself, in this stage or below it. -/
def Rooted (stage : Stage) (inherited : Agent) (past : List Moment) (e : StepError) : Prop :=
  ∃ path deep around, stage.at? inherited path = some (deep, around) ∧
    ∃ m ∈ along path past, m.Strikes deep (deep.effectiveAgent around) e

variable {stage : Stage} {inherited agent : Agent} {c : Context} {past before after : List Moment}
  {run : StageRun} {m : Moment} {seen : List (Nat × Option StepError)} {path : List Nat} {i : Nat}
  {e : StepError} {failure outcome : Option StepError} {runs : List StageRun}

/-! ### Joins -/

theorem notices_concat (past : List Moment) (m : Moment) :
    notices (past ++ [m]) = notices past ++ m.notice?.toList := by
  cases h : m.notice? <;> simp [notices, h]

theorem notice?_received {output : StageOutput} (there : runs[i]? = some (settled output outcome))
    (path : List Nat) (run : StageRun) (news : List Record) :
    Moment.notice? ⟨i :: path, joining stage agent runs failure, run, news⟩ = some (i, outcome) := by
  simp [Moment.notice?, there]

theorem notice?_inside (there : runs[i]? = some run) (unsettled : run.isSettled = false)
    (path : List Nat) (run' : StageRun) (news : List Record) :
    Moment.notice? ⟨i :: path, joining stage agent runs failure, run', news⟩ = none := by
  cases run with
  | settled => cases unsettled
  | _ => simp [Moment.notice?, there]

theorem firstFailure_concat (seen : List (Nat × Option StepError)) (i : Nat)
    (outcome : Option StepError) :
    firstFailure (seen ++ [(i, outcome)]) = (firstFailure seen).or outcome := by
  cases outcome <;> simp [firstFailure]

/-- A turn in a stage is not had, and not left, as one that the stage around has received. -/
theorem unreceived_of_move {w w' : World} {run' : StageRun}
    (h : run.move c w path = .moved w' run') (output : StageOutput) :
    run ≠ received output ∧ run' ≠ received output := by
  have left (stage : Stage) (agent : Agent) (branches : Option StageResults) :
      ownSteps stage agent branches ≠ received output :=
    ownSteps_cases branches (by simp) (by simp)
  cases turned_of_move h with
  | enters => exact ⟨by simp, enter_cases (fun _ => left _ _ _) (by simp)⟩
  | leaves all => exact ⟨by simp, leaveJoin_cases _ _ (by simp) fun _ => left _ _⟩
  | _ => simp

/-- What a join knows of the notices that it has taken. -/
def Tallies (seen : List (Nat × Option StepError)) : StageRun → Prop
  | fresh .. => seen = []
  | joining _ _ runs failure =>
    failure = firstFailure seen ∧ (seen.map (·.1)).Nodup ∧
      ∀ i, i ∈ seen.map (·.1) ↔ ∃ output, runs[i]? = some (received output)
  | _ => True

theorem tallies_ownSteps (branches : Option StageResults) :
    Tallies seen (ownSteps stage agent branches) :=
  ownSteps_cases branches (fun _ => trivial) trivial

theorem Run.tallies (so : Run stage inherited c past run) : run.Tallies (notices past) := by
  induction so with
  | begins c => rfl
  | cancelled so ih => exact ih
  | @turn c past run run' path w w' news so moved noted ih =>
    rw [notices_concat]
    cases turned_of_move moved with
    | enters =>
      have none_seen : notices past = [] := ih
      refine enter_cases (fun _ => tallies_ownSteps none) ?_
      refine ⟨?_, ?_, ?_⟩ <;> simp [Moment.notice?, none_seen, firstFailure]
    | leaves all =>
      exact leaveJoin_cases _ _ (fun _ _ _ => trivial) fun _ branches => tallies_ownSteps branches
    | works notes goes => trivial
    | settles notes ends => trivial
    | @receives _ _ runs failure i way output outcome there =>
      obtain ⟨first, once, all⟩ := ih
      have new : i ∉ (notices past).map (·.1) := by simp [all, there]
      rw [notice?_received there, Option.toList_some]
      refine ⟨by rw [firstFailure_concat, first], ?_, ?_⟩
      · rw [List.map_append, List.nodup_append]
        refine ⟨once, by simp, ?_⟩
        rintro j hj k hk rfl
        obtain rfl : j = i := by simpa using hk
        exact new hj
      · intro j
        by_cases hj : j = i
        · subst hj
          simp [set_there there]
        · simpa [hj, Ne.symm hj] using all j
    | @inside _ _ runs _ i _ run₁ run₁' _ there unsettled inner =>
      obtain ⟨first, once, all⟩ := ih
      rw [notice?_inside there unsettled, Option.toList_none, List.append_nil]
      refine ⟨first, once, fun j => ?_⟩
      rw [all]
      by_cases hj : j = i
      · subst hj
        simp [there, set_there there, unreceived_of_move inner]
      · simp [Ne.symm hj]

theorem firstFailure_isSome : (firstFailure seen).isSome = true ↔ ∃ i e, (i, some e) ∈ seen := by
  rw [firstFailure, List.findSome?_isSome_iff]
  constructor
  · rintro ⟨⟨i, outcome⟩, mem, some⟩
    obtain ⟨e, rfl⟩ := Option.isSome_iff_exists.mp some
    exact ⟨i, e, mem⟩
  · rintro ⟨i, e, mem⟩
    exact ⟨_, mem, rfl⟩

theorem leaveJoin_fails (outputs : List StageOutput) :
    (∃ output, leaveJoin stage agent outputs failure = settled output (some e)) ↔
      failure = some e := by
  cases failure with
  | some f => simp [leaveJoin]
  | none =>
    simp only [leaveJoin]
    exact ownSteps_cases _ (by simp) (by simp)

/-- A join is left once all its branches have come in, with the failure that came in first. -/
theorem Run.joined (so : Run stage inherited c past run) (split : past = before ++ m :: after)
    (join : m.before.isJoining = true) (left : m.after.isJoining = false) :
    Joined stage (notices before) m.after := by
  obtain ⟨c', w, w', earlier, moved, -⟩ := so.split split
  obtain ⟨path, whole, result, news⟩ := m
  cases whole with
  | joining s a runs failure =>
    obtain ⟨first, once, all⟩ := earlier.tallies
    obtain ⟨rfl, -, size⟩ := earlier.shape
    cases turned_of_move moved with
    | @leaves _ _ _ _ outputs received =>
      obtain rfl := outputs?_eq_some.mp received
      refine ⟨once, fun i => ?_, ?_, ?_⟩
      · rw [all, ← size]
        simp [← Option.isSome_iff_exists]
      · rw [← firstFailure_isSome, ← first, Option.isSome_iff_exists, exists_comm]
        exact exists_congr fun e => leaveJoin_fails outputs
      · intro output e h
        exact first.symm.trans ((leaveJoin_fails outputs).mp ⟨output, h⟩)
    | receives there => cases left
    | inside there unsettled inner => cases left
  | _ => cases join

/-! ### Errors -/

theorem Rooted.later (h : Rooted stage inherited past e) (m : Moment) :
    Rooted stage inherited (past ++ [m]) e := by
  obtain ⟨path, deep, around, there, m', mem, strikes⟩ := h
  refine ⟨path, deep, around, there, m', ?_, strikes⟩
  rw [along_append]
  exact List.mem_append_left _ mem

theorem Rooted.up {branch : Stage} (hb : stage.parallel[i]? = some branch)
    (h : Rooted branch (stage.effectiveAgent inherited) (within i past) e) :
    Rooted stage inherited past e := by
  obtain ⟨path, deep, around, there, strikes⟩ := h
  exact ⟨i :: path, deep, around, by simpa [Stage.at?, hb] using there, strikes⟩

/-- An error is accounted for by the token that was given, or it has come up here or below. -/
def Explained (stage : Stage) (inherited : Agent) (c : Context) (past : List Moment)
    (e : StepError) : Prop :=
  e = .cancelled ∧ c.cancelled = true ∨ Rooted stage inherited past e

/-- The errors that a stage knows of are accounted for. -/
def Explains (stage : Stage) (inherited : Agent) (c : Context) (past : List Moment) :
    StageRun → Prop
  | joining _ _ _ failure => ∀ e, failure = some e → Explained stage inherited c past e
  | settled _ failure => ∀ e, failure = some e → Explained stage inherited c past e
  | _ => True

theorem Explained.later (h : Explained stage inherited c past e) (m : Moment) :
    Explained stage inherited c (past ++ [m]) e := h.imp_right (·.later m)

theorem explains_ownSteps (s : Stage) (branches : Option StageResults) :
    Explains stage inherited c past (ownSteps s agent branches) :=
  ownSteps_cases branches (by simp [Explains]) trivial

/-- Every error that comes out of a branch is accounted for. -/
def BranchesExplain (stage : Stage) (inherited : Agent) : Prop :=
  ∀ (i : Nat) (branch : Stage), stage.parallel[i]? = some branch → ∀ c past run,
    Run branch (stage.effectiveAgent inherited) c past run →
      Explains branch (stage.effectiveAgent inherited) c past run

/-- The first failure of a branch has come up under the token of the join itself. -/
theorem Run.explained_received {output : StageOutput}
    (so : Run stage inherited c past (joining stage agent runs none))
    (there : runs[i]? = some (settled output (some e)))
    (deeper : BranchesExplain stage inherited) : Explained stage inherited c past e := by
  have inside : i < stage.parallel.length :=
    so.shape.2.2 ▸ (List.getElem?_eq_some_iff.mp there).1
  have hb := List.getElem?_eq_getElem inside
  obtain ⟨failure, run, inner, holds⟩ := so.branch hb
  cases holds with
  | through through => cases through
  | heard earlier => simp [there] at earlier
  | underWay now =>
    obtain rfl := Option.some.inj (there.symm.trans now)
    rcases deeper i _ hb _ _ _ inner e rfl with ⟨rfl, cancelled⟩ | rooted
    · exact .inl ⟨rfl, by simpa [Context.inside] using cancelled⟩
    · exact .inr (rooted.up hb)

theorem Run.explains_of_branches (so : Run stage inherited c past run)
    (deeper : BranchesExplain stage inherited) : Explains stage inherited c past run := by
  induction so with
  | begins c => trivial
  | @cancelled c past run so ih =>
    have cancel (e : StepError) (h : Explained stage inherited c past e) :
        Explained stage inherited { c with cancelled := true } past e :=
      h.imp_left fun h => ⟨h.1, rfl⟩
    cases run with
    | joining | settled => exact fun e he => cancel e (ih e he)
    | _ => trivial
  | @turn c past run run' path w w' news so moved noted ih =>
    have shape := so.shape
    cases turned_of_move moved with
    | enters => exact enter_cases (fun _ => explains_ownSteps _ _) (by simp [Explains])
    | @leaves _ _ _ failure outputs all =>
      cases failure with
      | some e => exact fun e he => (ih e he).later _
      | none => exact explains_ownSteps _ _
    | works notes goes => trivial
    | @settles _ _ branches own events _ result notes ends =>
      intro e he
      obtain ⟨rfl, rfl⟩ := shape
      rcases ends.accounted so.sound e he with cancelled | comes
      · exact .inl cancelled
      · refine .inr ⟨[], _, _, rfl, _, List.mem_append_right _ (List.mem_singleton_self _), ?_⟩
        exact ⟨branches, own, _, rfl, by rw [he], comes⟩
    | @receives _ _ runs failure i way output outcome there =>
      intro e he
      cases failure with
      | some f => exact (ih e he).later _
      | none =>
        obtain ⟨rfl, -, -⟩ := shape
        obtain rfl : outcome = some e := by simpa using he
        exact (so.explained_received there deeper).later _
    | inside there unsettled inner => exact fun e he => (ih e he).later _

/-- Every error that comes out of a stage is accounted for. -/
theorem Run.explains {stage : Stage} {inherited : Agent} {c : Context} {past : List Moment}
    {run : StageRun} (so : Run stage inherited c past run) :
    Explains stage inherited c past run := by
  refine so.explains_of_branches fun i branch hb c past run inner => ?_
  have smaller := Stage.sizeOf_branch_lt hb
  exact inner.explains
termination_by sizeOf stage

end StageRun

namespace Execution

/-- A failure that some stage of the pipeline, at whatever depth, has come to by itself. -/
def HasRoot (pipeline : Pipeline) (past : List Moment) (f : StageFailure) : Prop :=
  ∃ i top way stage around error, pipeline.stages[i]? = some top ∧
    f = ⟨top.name, error.message⟩ ∧ pipeline.stageAt? (i :: way) = some (stage, around) ∧
    ∃ m ∈ pastAt past (i :: way), m.Strikes stage (stage.effectiveAgent around) error

variable {engine : Engine} {pipeline : Pipeline} {properties : Properties} {state : StateCell}
  {past : List Moment} {e : Execution}

theorem Run.hasRoot (so : Run engine pipeline properties state past e) {report : Report}
    {f : StageFailure} (ended : e.phase = .over (.ok report)) (failed : report.failure = some f) :
    HasRoot pipeline past f := by
  induction so with
  | begins => cases ended
  | called so rota ih => exact ih ended
  | @turn past e e' path w w' news so moved noted ih =>
    obtain ⟨rfl, -, fits⟩ := so.fits
    cases turned_of_move moved with
    | refused => cases ended
    | begins => cases ended
    | finishes =>
      cases ended
      cases failed
    | starts => cases ended
    | succeeds => cases ended
    | @fails workflow i name output error todo results _ phase =>
      rw [phase] at fits
      obtain ⟨known, top, named, rest⟩ := fits
      have hs : e.pipeline.stages[i]? = some top := by simpa using congrArg List.head? rest
      obtain ⟨run, inner, holds⟩ := so.stage known hs
      rw [phase] at holds
      cases holds with
      | ahead idle before => simp [Phase.isBefore] at before
      | behind after => simp [Phase.isAfter] at after
      | underWay =>
        cases ended
        cases failed
        rcases inner.explains error rfl with ⟨-, cancelled⟩ | rooted
        · cases cancelled
        · obtain ⟨way, stage, around, there, m, mem, strikes⟩ := rooted
          refine ⟨i, top, way, stage, around, error, hs, by rw [named], ?_, m, ?_, strikes⟩
          · simpa [Pipeline.stageAt?, hs] using there
          · rw [pastAt, inStage_concat_outside (.inr (by simp))]
            exact mem
    | inside => cases ended

theorem Run.cancelled_of_settled (so : Run engine pipeline properties state past e)
    {path : List Nat} {output : StageOutput}
    (there : e.stageAt? path = some (.settled output (some .cancelled))) :
    (e.contextAt engine path).cancelled = true := by
  obtain ⟨workflow, stage, around, known, declared⟩ := so.declared there
  obtain ⟨c, run, inner, -, -, stands⟩ := so.descend known declared
  obtain ⟨rfl, rfl⟩ := stands.of_there there (by simp) (by simp)
  rcases inner.explains .cancelled rfl with ⟨-, cancelled⟩ | rooted
  · exact cancelled
  · obtain ⟨_, _, _, _, _, _, _, _, _, -, -, comes⟩ := rooted
    exact comes.elim

/-- The root cause of a failure survives every join: a stage is cancelled only under a cancelled
token, a join reports the failure that came in first after all of its branches have come in, and
what the execution reports has come up by itself in some stage. -/
theorem root_cause_survives (so : Run engine pipeline properties state past e) :
    (∀ path output, e.stageAt? path = some (.settled output (some .cancelled)) →
      (e.contextAt engine path).cancelled = true) ∧
    (∀ path stage around before m after, pipeline.stageAt? path = some (stage, around) →
      pastAt past path = before ++ m :: after → m.before.isJoining = true →
      m.after.isJoining = false → StageRun.Joined stage (StageRun.notices before) m.after) ∧
    ∀ report f, e.result? = some (.ok report) → report.failure = some f →
      HasRoot pipeline past f := by
  refine ⟨fun path output there => so.cancelled_of_settled there, ?_, ?_⟩
  · intro path stage around before m after declared split join left
    have mem : m ∈ pastAt past path := by simp [split]
    obtain ⟨workflow, -, -, known, -⟩ := so.declared_of_past mem
    obtain ⟨c, run, inner, -⟩ := so.descend known declared
    exact inner.joined split join left
  · intro report f ended failed
    unfold result? at ended
    split at ended
    next result phase =>
      obtain rfl := Option.some.inj ended
      exact so.hasRoot phase failed
    next => cases ended

theorem Duo.root_cause : ∃ report, Duo.played.2.2.result? = some (.ok report) ∧
    report.failure = some ⟨"build", "broken"⟩ ∧
    HasRoot Duo.pipeline Duo.played.1 ⟨"build", "broken"⟩ := by
  obtain ⟨-, -, rooted⟩ := root_cause_survives Duo.run
  exact ⟨_, rfl, rfl, rooted _ _ rfl rfl⟩

end Execution
end PipelineRunner
