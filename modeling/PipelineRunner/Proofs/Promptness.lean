import PipelineRunner.Proofs.Rotation
import PipelineRunner.Proofs.Scheduling
import PipelineRunner.Proofs.WantedTurns

/-! Time passes over nobody. As the rota goes round, it knows of every place of an execution at
which a turn can be had, so that the clock only goes on when there is nothing left to do anywhere. -/

namespace PipelineRunner

variable {w w' : World}

/-! ### What can be done in an execution -/

namespace Execution

open StageRun (wants_append wants_cons waits_above waits_of_outstanding)

/-- At which places a turn is wanted. -/
def Phase.Wants (engine : Engine) (w : World) : Phase → List Nat → Prop
  | .fresh => fun place => place = []
  | .between .. => fun place => place = []
  | .inStage workflow index _ run _ _ => run.Wants (outermost engine workflow index) w
  | .over _ => fun _ => False
  | .crashed _ => fun _ => False

/-- At which places branches are waited for. -/
def Phase.Waits : Phase → List Nat → Prop
  | .inStage _ _ _ run _ _ => run.Waits
  | _ => fun _ => False

/-- The rota knows of all turns that are wanted. -/
def Attentive (engine : Engine) (w : World) (e : Execution) : Prop :=
  e.rota.Keeps (e.phase.Wants engine w) e.phase.Waits

variable {engine : Engine} {e e' after : Execution} {phase : Phase} {place : List Nat}
  {workflow name : String} {index : Nat} {run run' : StageRun} {todo : List Stage}
  {results : StageResults}

theorem Phase.Waits.settled (h : phase.Waits place) : ¬phase.Wants engine w place := by
  cases phase with
  | inStage => exact StageRun.Waits.settled h
  | _ => cases h

theorem at?_inStage (phase : e.phase = .inStage workflow index name run todo results)
    (place : List Nat) : e.at? place = run.at? place := by
  simp [at?, phase]

theorem attentive_fresh (pipeline : Pipeline) (properties : Properties) (state : StateCell) :
    Attentive engine w { pipeline, properties, state } :=
  ⟨trivial, fun _ => rfl, nofun, fun join _ _ h => (by cases join <;> cases h), fun _ _ => .inr rfl⟩

/-- Whenever it is, and whoever is called that need not wait any longer. -/
theorem Attentive.wake (kept : e.Attentive engine w) (w' : World) :
    (e.wake engine w').Attentive engine w' := by
  unfold Attentive at kept
  unfold Execution.wake
  split
  next phase =>
    rw [phase] at kept
    unfold Attentive
    rw [phase]
    exact (kept.calls _).weaken fun place h => h.anywhere _ w
  next outside =>
    refine kept.weaken fun place h => ?_
    cases phase : e.phase with
    | inStage => exact absurd phase (outside _ _ _ _ _ _)
    | _ =>
      rw [phase] at h
      exact h

theorem Attentive.beside (kept : e.Attentive engine w) (clock : w'.clock = w.clock) :
    e.Attentive engine w' := by
  refine kept.weaken fun place h => ?_
  cases phase : e.phase with
  | inStage =>
    rw [phase] at h
    exact StageRun.Wants.congr h clock
  | _ =>
    rw [phase] at h
    exact h

theorem follow_still (calm : e.isNews place = false) (alone : after.outstanding? place = none) :
    e.follow engine place w after = after := by
  unfold follow
  rw [calm, alone]
  cases e.outstanding? place <;> rfl

theorem follow_branches {branches : Nat} (calm : e.isNews place = false)
    (before : e.outstanding? place = none) (behind : after.outstanding? place = some branches) :
    e.follow engine place w after = { after with rota := after.rota.gather place branches } := by
  unfold follow
  rw [calm, before, behind]
  rfl

theorem Attentive.follow_outside (kept : e.Attentive engine w) (onTurn : e.rota.onTurn = true)
    (outside : ∀ place, ¬e.phase.Waits place) (rota : after.rota = e.rota)
    (alone : after.outstanding? [] = none)
    (only : ∀ place, after.phase.Wants engine w' place → place = []) :
    (e.follow engine e.rota.place w' after).Attentive engine w' := by
  have none_ : e.rota.rounds = [] := by
    cases rounds : e.rota.rounds with
    | nil => rfl
    | cons round outer =>
      exact absurd (kept.joins round (by simp [rounds])) (outside _)
  have here : e.rota.place = [] := by simp [Rota.place, none_]
  rw [here, follow_still rfl alone]
  unfold Attentive at kept ⊢
  rw [rota]
  exact kept.here onTurn (by simp [none_]) fun place h => .inr ((only place h).trans here.symm)

theorem Attentive.follow_here {deep : StageRun} (kept : e.Attentive engine w)
    (onTurn : e.rota.onTurn = true)
    (phase : e.phase = .inStage workflow index name run todo results)
    (moved : run.move (outermost engine workflow index) w e.rota.place = .moved w' run')
    (there : run.at? e.rota.place = some deep) (unsettled : deep.isSettled = false) :
    (e.follow engine e.rota.place w'
      { e with phase := .inStage workflow index name run' todo results }).Attentive engine w' := by
  rw [← List.append_nil e.rota.place] at moved
  obtain ⟨deep', moved', there', -, wanted⟩ := StageRun.move_below there unsettled moved
  have joins (round : Round) (mem : round ∈ e.rota.rounds) : run'.Waits round.join := by
    obtain ⟨way, below⟩ := kept.nested.below mem
    rw [← Rota.place_eq] at below
    exact waits_above (below ▸ there') (StageRun.live_of_move moved')
  have calm : e.isNews e.rota.place = false := by
    unfold isNews
    split
    next found =>
      rw [at?_inStage phase, there] at found
      exact Option.some.inj found ▸ unsettled
    next => rfl
  have before : e.outstanding? e.rota.place = deep.outstanding? := by
    simp [outstanding?, at?_inStage phase, there]
  have behind : outstanding? { e with phase := .inStage workflow index name run' todo results }
      e.rota.place = deep'.outstanding? := by
    simp [outstanding?, at?, there']
  unfold Attentive at kept
  rw [phase] at kept
  rcases StageRun.branches_of_moveHere moved' with alone | ⟨alone, stage, agent, branches, rfl⟩
  · rw [follow_still calm (behind.trans alone)]
    refine kept.here onTurn joins fun place h => (wanted place h).imp_right ?_
    rintro ⟨_ | ⟨i, rest⟩, rfl, run, found, -⟩
    · simp
    · cases (StageRun.at?_of_no_branches alone i rest).symm.trans found
  · rw [follow_branches calm (before.trans alone) behind]
    refine kept.gather onTurn joins fun place h => ?_
    by_cases below : e.rota.place <+: place
    · obtain ⟨way, rfl⟩ := below
      rcases ((wants_append there' way).mp h).of_opened with rfl | ⟨i, lt, rfl⟩
      · exact .inr (.inl (List.append_nil _))
      · refine .inr (.inr ⟨i, ?_, rfl⟩)
        rw [List.filter_eq_self.mpr (by simp [StageRun.output?])]
        simpa using lt
    · refine .inl ⟨(wanted _ h).resolve_right ?_, below⟩
      rintro ⟨rest, rfl, -⟩
      exact below (List.prefix_append _ _)

/-- In a round, the turn is at a branch of a join. -/
theorem Attentive.within_round (kept : e.Attentive engine w)
    (phase : e.phase = .inStage workflow index name run todo results) {round : Round}
    {outer : List Round} (within : e.rota.rounds = round :: outer) :
    e.rota.place = round.join ++ [round.branch] ∧ ∃ stage agent runs failure,
      run.at? round.join = some (.joining stage agent runs failure) := by
  unfold Attentive at kept
  rw [phase] at kept
  obtain ⟨stage, agent, runs, failure, join, -⟩ := kept.joins round (by simp [within])
  exact ⟨by simp [Rota.place, within], stage, agent, runs, failure, join⟩

/-- The news that a branch is through. -/
theorem Attentive.follow_news {output : StageOutput} {outcome : Option StepError}
    (kept : e.Attentive engine w) (onTurn : e.rota.onTurn = true)
    (phase : e.phase = .inStage workflow index name run todo results)
    (moved : run.move (outermost engine workflow index) w e.rota.place = .moved w' run')
    (there : run.at? e.rota.place = some (.settled output outcome)) (inside : e.rota.place ≠ []) :
    (e.follow engine e.rota.place w'
      { e with phase := .inStage workflow index name run' todo results }).Attentive engine w' := by
  have news : e.isNews e.rota.place = true := by
    obtain ⟨i, way, at_⟩ := List.exists_cons_of_ne_nil inside
    rw [at_] at there ⊢
    simp [isNews, at?_inStage phase, there, StageRun.isSettled]
  cases within : e.rota.rounds with
  | nil => exact absurd (by simp [Rota.place, within]) inside
  | cons round outer =>
    obtain ⟨at_, stage, agent, runs, failure, join⟩ := kept.within_round phase within
    unfold Attentive at kept
    rw [phase] at kept
    have found : runs[round.branch]? = some (.settled output outcome) := by
      rw [at_, StageRun.at?_append, join] at there
      cases branch : runs[round.branch]? with
      | none => simp [StageRun.at?, branch] at there
      | some run => simpa [StageRun.at?, branch] using there
    obtain ⟨joined, quiet, wanted⟩ := StageRun.move_receives join found (at_ ▸ moved)
    obtain ⟨rounds, still⟩ :=
      Rota.calls_same (run'.awake (outermost engine workflow index) w') e.rota
    have nested := kept.nested
    rw [within] at rounds nested
    unfold follow
    rw [if_pos news]
    have onTurn' := still.trans onTurn
    refine (kept.calls _).renew (fun _ => StageRun.Waits.settled) onTurn' rounds _ ?_ ?_ ?_ ?_
    · intro left
      refine waits_of_outstanding joined rfl fun zero => left ?_
      rw [at_, List.dropLast_concat]
      change ((run'.at? round.join).bind StageRun.outstanding?).getD 0 = 0
      rw [joined]
      exact zero
    · intro other mem
      obtain ⟨way, below⟩ := nested.2.below mem
      rw [← nested.1] at below
      exact waits_above (below ▸ joined) rfl
    · intro place h
      rcases wanted place h with earlier | awake | here
      · exact .inl (.inl earlier)
      · exact .inl (.inr awake)
      · exact .inr here
    · intro way
      rw [Rota.place_eq, rounds, Rota.placeOf_cons, ← List.append_cons]
      exact quiet way

/-- A turn is had where something is. -/
theorem Attentive.there (kept : e.Attentive engine w)
    (phase : e.phase = .inStage workflow index name run todo results)
    (moved : run.move (outermost engine workflow index) w e.rota.place = .moved w' run') :
    ∃ deep, run.at? e.rota.place = some deep := by
  cases within : e.rota.rounds with
  | nil => exact ⟨run, by simp [Rota.place, within]⟩
  | cons round outer =>
    obtain ⟨at_, stage, agent, runs, failure, join⟩ := kept.within_round phase within
    rw [at_] at moved ⊢
    obtain ⟨joined, moved', -⟩ := StageRun.move_below join rfl moved
    rw [StageRun.at?_append, join]
    cases StageRun.turned_of_move moved' with
    | receives found | inside found =>
      exact ⟨_, by rw [Option.bind_some, StageRun.at?_joining found, StageRun.at?_nil]⟩

/-- Whoever has had a turn keeps it, and whoever is called by it has one to come. -/
theorem Attentive.follow (kept : e.Attentive engine w) (onTurn : e.rota.onTurn = true)
    (moved : e.move engine w e.rota.place = .moved w' after) :
    (e.follow engine e.rota.place w' after).Attentive engine w' := by
  have through {output : StageOutput} {failure : Option StepError} (place : List Nat) :
      ¬(StageRun.settled output failure).Waits place := by
    rintro ⟨stage, agent, runs, failure, there, -⟩
    cases StageRun.at?_settled there
  cases turned_of_move moved with
  | refused fresh =>
    refine kept.follow_outside onTurn ?_ rfl rfl fun _ h => h.elim
    rw [fresh]
    exact fun _ h => h
  | begins fresh =>
    refine kept.follow_outside onTurn ?_ rfl rfl fun _ h => h
    rw [fresh]
    exact fun _ h => h
  | finishes phase =>
    refine kept.follow_outside onTurn ?_ rfl rfl fun _ h => h.elim
    rw [phase]
    exact fun _ h => h
  | starts phase =>
    refine kept.follow_outside onTurn ?_ rfl rfl fun _ h => StageRun.Wants.alone h rfl
    rw [phase]
    exact fun _ h => h
  | succeeds phase =>
    refine kept.follow_outside onTurn ?_ rfl rfl fun _ h => h
    rw [phase]
    exact through
  | fails phase =>
    refine kept.follow_outside onTurn ?_ rfl rfl fun _ h => h.elim
    rw [phase]
    exact through
  | inside phase unsettled inner =>
    obtain ⟨deep, there⟩ := kept.there phase inner
    cases deep with
    | settled output outcome =>
      refine kept.follow_news onTurn phase inner there fun here => ?_
      rw [here] at there
      obtain rfl := Option.some.inj ((StageRun.at?_nil _).symm.trans there)
      cases unsettled
    | _ => exact kept.follow_here onTurn phase inner there rfl

/-- Where a turn finds nothing to do, none is wanted. -/
theorem unwanted_of_blocked (blocked : e.move engine w place = .blocked) :
    ¬e.phase.Wants engine w place := by
  intro wants
  unfold Execution.move at blocked
  split at blocked
  next fresh =>
    unfold Execution.begin at blocked
    split at blocked <;> cases blocked
  next => cases blocked
  next => cases blocked
  next output failure todo results phase => cases failure <;> cases blocked
  next run todo results unsettled phase =>
    rw [phase] at wants
    obtain ⟨deep, there, -⟩ := id wants
    refine StageRun.blocked_at there (StageRun.isSettled_eq_false unsettled) ?_ wants
    unfold followStage at blocked
    split at blocked
    next => cases blocked
    next => cases blocked
    next turn unmoved uncrashed => exact Turn.eq_blocked unmoved uncrashed
  next phase => exact (phase ▸ wants : Phase.Wants engine w (.over _) place)
  next phase => exact (phase ▸ wants : Phase.Wants engine w (.crashed _) place)

/-- A place at which nothing can be done gives way. -/
theorem Attentive.giveWay (kept : e.Attentive engine w) (onTurn : e.rota.onTurn = true)
    (blocked : e.move engine w e.rota.place = .blocked) :
    (e.giveWay e.rota.place).Attentive engine w := by
  have unwanted := unwanted_of_blocked blocked
  have settled (place : List Nat) : e.phase.Waits place → ¬e.phase.Wants engine w place :=
    Phase.Waits.settled
  unfold Execution.giveWay
  split
  next branches outstanding =>
    refine Rota.Keeps.openRound settled kept onTurn ?_ branches
    cases phase : e.phase with
    | inStage workflow index name run todo results =>
      rw [phase] at unwanted
      simp only [outstanding?, at?, phase] at outstanding
      obtain ⟨deep, there, branches⟩ := Option.bind_eq_some_iff.mp outstanding
      cases deep with
      | joining stage agent runs failure =>
        refine ⟨stage, agent, runs, failure, there, ?_⟩
        rw [← Option.not_isSome_iff_eq_none]
        exact fun all => unwanted ⟨_, there, .inl all⟩
      | _ => cases branches
    | _ => simp [outstanding?, at?, phase] at outstanding
  next alone =>
    refine Rota.Keeps.yield settled kept onTurn fun way h => unwanted ?_
    cases phase : e.phase with
    | inStage workflow index name run todo results =>
      rw [phase] at h
      simp only [outstanding?, at?, phase] at alone
      obtain ⟨deep, below, wants⟩ := id h
      rw [StageRun.at?_append] at below
      obtain ⟨here, there, below⟩ := Option.bind_eq_some_iff.mp below
      rw [there, Option.bind_some] at alone
      obtain rfl := StageRun.Wants.alone ((wants_append there way).mp h) alone
      simpa using h
    | _ =>
      rw [phase] at h
      first | exact (List.append_eq_nil_iff.mp h).1 | exact h

/-- Every step keeps to it that the rota knows of all turns that are wanted. -/
theorem Attentive.step (kept : e.Attentive engine w) (h : e.step engine w = .moved w' e') :
    e'.Attentive engine w' := by
  unfold Execution.step at h
  split at h
  next onTurn =>
    dsimp only at h
    split at h
    next moved =>
      cases h
      exact kept.follow onTurn moved
    next => cases h
    next turn unmoved uncrashed =>
      cases h
      exact kept.giveWay onTurn (Turn.eq_blocked unmoved uncrashed)
  next =>
    split at h
    · cases h
      exact Rota.Keeps.begin kept
    · cases h

/-- When the whole comes to rest no turn is wanted. -/
theorem Attentive.quiet (kept : e.Attentive engine w) (rest : e.step engine w = .blocked)
    (place : List Nat) : ¬e.phase.Wants engine w place := by
  intro wants
  unfold Execution.step at rest
  split at rest
  · dsimp only at rest
    split at rest <;> cases rest
  next off =>
    split at rest
    · cases rest
    next uncalled =>
      rcases kept.stirred place wants with onTurn | called
      · exact off onTurn
      · exact uncalled called

end Execution

/-! ### Runs in time -/

namespace Execution

/-- The turn that is had in a step, if one is. -/
def turnIn (engine : Engine) (e : Execution) (w : World) : List Moment :=
  if e.rota.onTurn then
    match e.move engine w e.rota.place with
    | .moved w' after =>
      let news := (w'.history.take (w'.history.length - w.history.length)).reverse
      [⟨e.rota.place, e, after, news⟩]
    | _ => []
  else []

/-- The runs of an execution that has its turns as the rota tells, in the world that it finds and
leaves. Anything may go on beside it, but time passes only when no step can be made. -/
inductive Driven (engine : Engine) (pipeline : Pipeline) (properties : Properties)
    (state : StateCell) : List Moment → World → Execution → Prop where
  | begins (w : World) :
      Driven engine pipeline properties state [] w { pipeline, properties, state }
  | step {past : List Moment} {w w' : World} {e e' : Execution}
      (so : Driven engine pipeline properties state past w e)
      (stepped : e.step engine w = .moved w' e') :
      Driven engine pipeline properties state (past ++ e.turnIn engine w) w' e'
  | beside {past : List Moment} {w w' : World} {e : Execution}
      (so : Driven engine pipeline properties state past w e) (clock : w'.clock = w.clock) :
      Driven engine pipeline properties state past w' e
  | later {past : List Moment} {w : World} {e : Execution}
      (so : Driven engine pipeline properties state past w e)
      (rest : e.step engine w = .blocked) (w' : World) :
      Driven engine pipeline properties state past w' (e.wake engine w')

variable {engine : Engine} {pipeline : Pipeline} {properties : Properties} {state : StateCell}
  {past : List Moment} {e e' : Execution}

/-- So many steps one after the other, as long as they can be made. -/
def drive (engine : Engine) : Nat → World → Execution → List Moment × World × Execution
  | 0, w, e => ([], w, e)
  | steps + 1, w, e =>
    match e.step engine w with
    | .moved w' e' =>
      let (past, after) := drive engine steps w' e'
      (e.turnIn engine w ++ past, after)
    | _ => ([], w, e)

/-- A step is the turn that is had in it, or only changes who has the next one. -/
theorem turnIn_of_step (h : e.step engine w = .moved w' e') :
    (∃ after rota news, e.move engine w e.rota.place = .moved w' after ∧ e' = { after with rota } ∧
        w'.history = news.reverse ++ w.history ∧
        e.turnIn engine w = [⟨e.rota.place, e, after, news⟩]) ∨
      w' = w ∧ (∃ rota, e' = { e with rota }) ∧ e.turnIn engine w = [] := by
  unfold Execution.step at h
  split at h
  next onTurn =>
    dsimp only at h
    split at h
    next after moved =>
      cases h
      obtain ⟨news, noted⟩ := grows_of_move moved
      obtain ⟨rota, same⟩ := @follow_eq engine e w' e.rota.place after
      refine .inl ⟨after, rota, news, moved, same, noted, ?_⟩
      simp [turnIn, onTurn, moved, noted]
    next => cases h
    next turn unmoved uncrashed =>
      cases h
      refine .inr ⟨rfl, giveWay_eq _, ?_⟩
      unfold turnIn
      rw [if_pos onTurn]
      split
      next moved => exact absurd moved (unmoved _ _)
      next => rfl
  next off =>
    split at h
    · cases h
      exact .inr ⟨rfl, ⟨_, rfl⟩, by simp [turnIn, off]⟩
    · cases h

/-- Steps that are driven go on with a run. -/
theorem Driven.drive (so : Driven engine pipeline properties state past w e) (steps : Nat) :
    Driven engine pipeline properties state (past ++ (drive engine steps w e).1)
      (drive engine steps w e).2.1 (drive engine steps w e).2.2 := by
  induction steps generalizing past w e with
  | zero => simpa [Execution.drive] using so
  | succ steps ih =>
    simp only [Execution.drive]
    split
    next stepped => simpa using ih (so.step stepped)
    next => simpa using so

theorem Driven.run (so : Driven engine pipeline properties state past w e) :
    Run engine pipeline properties state past e := by
  induction so with
  | begins w => exact .begins
  | step so stepped ih =>
    rcases turnIn_of_step stepped with ⟨after, rota, news, moved, rfl, noted, had⟩ |
      ⟨rfl, ⟨rota, rfl⟩, had⟩
    · rw [had]
      exact (ih.turn moved noted).called rota
    · rw [had, List.append_nil]
      exact ih.called rota
  | beside so clock ih => exact ih
  | later so rest w' ih => exact ih.wake w'

theorem Driven.attentive (so : Driven engine pipeline properties state past w e) :
    e.Attentive engine w := by
  induction so with
  | begins w => exact attentive_fresh _ _ _
  | step so stepped ih => exact ih.step stepped
  | beside so clock ih => exact ih.beside clock
  | later so rest w' ih => exact ih.wake w'

end Execution

/-! ### An execution by itself -/

namespace Cleanup

theorem clock_of_follow {c c' : Cleanup} {w' : World}
    {progress : World × Progress (Except Cause Unit)} (h : c.follow progress = (w', c')) :
    w'.clock = progress.1.clock := by
  obtain ⟨w, progress⟩ := progress
  cases progress <;> cases h <;> rfl

theorem clock_of_stepFirst {runtime : ContainerRuntime} {w w' : World}
    {cleanups after : List Cleanup} (h : stepFirst runtime w cleanups = some (w', after)) :
    w'.clock = w.clock := by
  obtain ⟨i, c, c', there, stepped, -⟩ := step_of_stepFirst h
  rcases follow_of_step stepped with ⟨-, begun⟩ | ⟨wait, -, went_on⟩
  · exact (clock_of_follow begun).trans (World.atOnce_perform _ _ _).1
  · exact (clock_of_follow went_on).trans (World.atOnce_perform _ _ _).1

end Cleanup

namespace SoloExecution

/-- An execution by itself has broken down, or it is in the midst of a run in time. -/
def InTime (engine : Engine) (pipeline : Pipeline) (properties : Properties) (state : StateCell)
    (s : SoloExecution) : Prop :=
  s.engine = engine ∧ ((∃ reason, s.execution.phase = .crashed reason) ∨
    ∃ past, Execution.Driven engine pipeline properties state past s.world s.execution)

variable {engine : Engine} {pipeline : Pipeline} {properties : Properties} {state : StateCell}
  {s s' : SoloExecution}

theorem InTime.step (inTime : InTime engine pipeline properties state s) (h : s.step = some s') :
    InTime engine pipeline properties state s' := by
  obtain ⟨rfl, inTime⟩ := inTime
  unfold SoloExecution.step at h
  split at h
  next w e moved =>
    cases h
    refine ⟨rfl, inTime.imp ?_ ?_⟩
    · rintro ⟨reason, broken⟩
      rcases Execution.step_moved moved with ⟨after, rota, moved, -⟩ | ⟨-, rota, rfl⟩
      · simp [Execution.move, broken] at moved
      · exact ⟨reason, broken⟩
    · rintro ⟨past, so⟩
      exact ⟨_, so.step moved⟩
  next w reason held broken =>
    cases h
    exact ⟨rfl, .inl ⟨reason, rfl⟩⟩
  next =>
    obtain ⟨⟨w, cleanups⟩, stepped, he⟩ := Option.map_eq_some_iff.mp h
    cases he
    refine ⟨rfl, inTime.imp_right ?_⟩
    rintro ⟨past, so⟩
    exact ⟨past, so.beside (Cleanup.clock_of_stepFirst stepped)⟩

theorem InTime.moveTo (inTime : InTime engine pipeline properties state s) (rest : s.step = none)
    (t : Nat) : InTime engine pipeline properties state (clockwork.moveTo t s) := by
  obtain ⟨rfl, inTime⟩ := inTime
  refine ⟨rfl, inTime.imp ?_ ?_⟩
  · rintro ⟨reason, broken⟩
    obtain ⟨rota, woken⟩ := @Execution.wake_eq s.engine s.execution { s.world with clock := t }
    exact ⟨reason, by simpa [clockwork, woken] using broken⟩
  · rintro ⟨past, so⟩
    refine ⟨past, so.later ?_ _⟩
    unfold SoloExecution.step at rest
    split at rest
    next => cases rest
    next => cases rest
    next unmoved uncrashed => exact Turn.eq_blocked unmoved uncrashed

/-- What an execution by itself comes to, it comes to in time, unless it breaks down. -/
theorem inTime_run (engine : Engine) (world : World) (pipeline : Pipeline) (properties : Properties)
    (state : StateCell) : InTime engine pipeline properties state
      (run ⟨engine, world, { pipeline, properties, state }, []⟩ []) := by
  have fresh : InTime engine pipeline properties state
      ⟨engine, world, { pipeline, properties, state }, []⟩ :=
    ⟨rfl, .inr ⟨[], .begins world⟩⟩
  have first := turn_preserves (fun _ _ stepped inTime => InTime.step inTime stepped) fresh
  unfold run
  dsimp only
  split
  · exact first
  · exact Clockwork.run_preserves (m := clockwork)
      (fun _ _ stepped inTime => InTime.step inTime stepped)
      (fun t _ rest _ _ inTime => InTime.moveTo inTime rest t) none first

end SoloExecution

end PipelineRunner
