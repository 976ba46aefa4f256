import PipelineRunner.Proofs.Instants
import PipelineRunner.Proofs.RootCause
import PipelineRunner.Proofs.TurnsAtPlaces

/-! At which places of a stage a turn can be had. Some have something to do at any time; others have
waited for a timer or for an interruption, and need not wait any longer. A turn changes nothing of
this but where it is had, and where a branch is received those that have waited are called. -/

namespace PipelineRunner

variable {c c' : Context} {w w' : World}

/-! ### What has to wait -/

namespace Trial

/-- Whether a step waits for a timer. -/
def isWaiting (t : Trial) : Bool :=
  match t.phase with
  | .ready _ => false
  | _ => true

variable {t : Trial}

theorem retry_ne_blocked (attempt : Nat) (e : StepError) : t.retry c attempt e w ≠ .blocked := by
  unfold retry
  split <;> simp

theorem follow_ne_blocked (attempt : Nat) (deadline : Option Timer)
    (progress : World × Progress (Except Cause (Option String))) :
    t.follow c attempt deadline progress ≠ .blocked := by
  obtain ⟨w, progress⟩ := progress
  cases progress with
  | crashed reason => exact nofun
  | waits call => cases deadline <;> exact nofun
  | finished answer =>
    cases answer with
    | ok output => exact nofun
    | error cause => exact retry_ne_blocked _ _

/-- A step has to wait exactly if it waits for a timer and nothing calls it. -/
theorem move_eq_blocked : t.move c w = .blocked ↔ t.isWaiting = true ∧ t.isAwake c w = false := by
  unfold move isWaiting isAwake
  cases t.phase with
  | ready made =>
    simp only [Bool.false_eq_true, false_and, iff_false]
    split
    · exact nofun
    · unfold begin
      dsimp only
      split
      · exact retry_ne_blocked _ _
      · exact follow_ne_blocked _ _ _
  | calling attempt deadline call =>
    simp only [true_and, Bool.or_eq_false_iff]
    split
    · simp [follow_ne_blocked, *]
    split
    · simp [*]
    split
    · simp [retry_ne_blocked, *]
    · simp_all
  | pausing made timer =>
    dsimp only
    split
    · simp [*]
    split <;> simp_all

end Trial

namespace OwnSteps

/-- Whether the steps of a stage wait for a timer. -/
def isWaiting : OwnSteps → Bool
  | pulling .. => true
  | starting .. => true
  | trying _ trial _ _ => trial.isWaiting
  | stopping .. => true
  | _ => false

variable {stage : Stage} {agent : Agent}

theorem followPull_ne_blocked (image : String) (progress : World × Progress (Except Cause Unit)) :
    followPull c image progress ≠ .blocked := by
  obtain ⟨w, _ | _ | _⟩ := progress
  next answer => cases answer <;> exact nofun
  all_goals exact nofun

theorem followStart_ne_blocked (image : String)
    (progress : World × Progress (Except Cause String)) :
    followStart c stage image progress ≠ .blocked := by
  obtain ⟨w, _ | _ | _⟩ := progress
  next answer => cases answer <;> exact nofun
  all_goals exact nofun

theorem followStop_ne_blocked (id : String) (result : StepsResult)
    (progress : World × Progress (Except Cause Unit)) :
    followStop c id result progress ≠ .blocked := by
  obtain ⟨w, _ | _ | _⟩ := progress <;> exact nofun

theorem followTrial_eq_blocked (container : Option String) (todo : List Step)
    (outputs : List String) (turn : Turn Trial StepResult) :
    followTrial container todo outputs turn = .blocked ↔ turn = .blocked := by
  cases turn with
  | ended w answer => cases answer <;> simp [followTrial]
  | _ => simp [followTrial]

theorem move_eq_blocked (own : OwnSteps) : own.move c stage agent w = .blocked ↔
    own.isWaiting = true ∧ own.isAwake c w = false := by
  cases own with
  | entering =>
    simp only [move, isWaiting, Bool.false_eq_true, false_and, iff_false]
    split
    · simp
    split
    · simp
    · exact followPull_ne_blocked _ _
  | pulling image wait | starting image wait | stopping id wait result =>
    simp only [move, isWaiting, isAwake, true_and]
    split <;> simp [followPull_ne_blocked, followStart_ne_blocked, followStop_ne_blocked, *]
  | pulled image => simp [move, isWaiting, followStart_ne_blocked]
  | between container todo outputs =>
    simp only [isWaiting, Bool.false_eq_true, false_and, iff_false]
    cases todo with
    | nil => simp [move]
    | cons step todo =>
      simp only [move, beginStep]
      split
      · simp
      · split <;> simp
  | trying container trial todo outputs =>
    rw [move, followTrial_eq_blocked, Trial.move_eq_blocked, isWaiting, isAwake]
  | leaving container result =>
    cases container <;> simp [move, isWaiting, followStop_ne_blocked]

/-- What a timer is to call depends on the clock alone. -/
theorem isAwake_congr (clock : w'.clock = w.clock) (own : OwnSteps) :
    own.isAwake c w' = own.isAwake c w := by
  have due (timer : Timer) : w'.isDue timer = w.isDue timer := by simp [World.isDue, clock]
  cases own with
  | trying container trial todo outputs =>
    simp only [isAwake, Trial.isAwake]
    split <;> simp [due]
  | _ => simp [isAwake, due]

end OwnSteps

/-! ### What can be done in a stage -/

namespace StageRun

/-- Whether something can be done at a stage at any time. -/
def isStirring : StageRun → Bool
  | fresh .. => true
  | joining _ _ runs _ => (outputs? runs).isSome
  | working _ _ _ own => !own.isWaiting
  | settled .. => true
  | received _ => false

/-- Whether a stage has waited and need not wait any longer. -/
def isAwake (c : Context) (w : World) : StageRun → Bool
  | working _ _ _ own => own.isAwake c w
  | _ => false

/-- Whether a turn is wanted at a place: something can be done there, or the stage around is to take
notice of an end. -/
def Wants (c : Context) (w : World) (whole : StageRun) (place : List Nat) : Prop :=
  ∃ run, whole.at? place = some run ∧
    (run.isStirring = true ∨ run.isAwake (contextAt c whole place) w = true)

/-- Whether branches are waited for at a place. -/
def Waits (whole : StageRun) (place : List Nat) : Prop :=
  ∃ stage agent runs failure, whole.at? place = some (joining stage agent runs failure) ∧
    outputs? runs = none

variable {whole run run' deep : StageRun} {path way join : List Nat} {runs : List StageRun}
  {stage : Stage} {agent : Agent} {failure : Option StepError} {i j : Nat}

theorem moveHere_eq_blocked (unsettled : run.isSettled = false) :
    run.moveHere c w = .blocked ↔ ¬(run.isStirring = true ∨ run.isAwake c w = true) := by
  cases run with
  | fresh | received => simp [moveHere, isStirring, isAwake]
  | settled => cases unsettled
  | joining stage agent runs failure =>
    simp only [moveHere, isStirring, isAwake]
    cases outputs? runs <;> simp
  | working stage agent branches own =>
    have follows (turn : OwnSteps.Result) :
        followSteps stage agent branches turn = .blocked ↔ turn = .blocked := by
      cases turn <;> simp [followSteps]
    simp [moveHere, follows, OwnSteps.move_eq_blocked, isStirring, isAwake]

theorem wants_append (there : whole.at? path = some deep) (way : List Nat) :
    whole.Wants c w (path ++ way) ↔ deep.Wants (contextAt c whole path) w way := by
  simp [Wants, at?_append, there, contextAt_append there]

theorem wants_cons (i : Nat) (way : List Nat) :
    (joining stage agent runs failure).Wants c w (i :: way) ↔
      ∃ run, runs[i]? = some run ∧ run.Wants (Context.inside c stage failure i) w way := by
  cases there : runs[i]? with
  | none => simp [Wants, at?, there]
  | some run => simp [Wants, at?, there, contextAt]

/-- A join that waits wants no turn itself. -/
theorem Waits.settled (waits : whole.Waits path) : ¬whole.Wants c w path := by
  obtain ⟨stage, agent, runs, failure, there, open_⟩ := waits
  rintro ⟨run, at_, wants⟩
  obtain rfl := Option.some.inj (there.symm.trans at_)
  simp [isStirring, isAwake, open_] at wants

/-- Above anything that is under way there are joins that wait. -/
theorem waits_above (there : whole.at? (path ++ i :: way) = some deep)
    (live : deep.output? = none) : whole.Waits path := by
  obtain ⟨stage, agent, runs, failure, inner, join, found, below⟩ := joining_of_at?_append there
  refine ⟨stage, agent, runs, failure, join, ?_⟩
  rw [← Option.not_isSome_iff_eq_none, Option.isSome_iff_exists]
  rintro ⟨outputs, all⟩
  rw [outputs?_eq_some] at all
  obtain ⟨output, -, rfl⟩ := List.mem_map.mp (all ▸ List.mem_of_getElem? found)
  obtain rfl := at?_received below
  cases live

theorem mem_awakeAmong (there : runs[j]? = some run)
    (awake : path ∈ run.awake (Context.inside c stage failure (i + j)) w) :
    (i + j) :: path ∈ awakeAmong c w stage failure i runs := by
  induction runs generalizing i j with
  | nil => cases there
  | cons first rest ih =>
    simp only [awakeAmong, List.mem_append, List.mem_map]
    cases j with
    | zero =>
      obtain rfl : first = run := by simpa using there
      exact .inl ⟨path, awake, rfl⟩
    | succ j =>
      have later := @ih (i + 1) j (by simpa using there)
      rw [Nat.add_right_comm] at later
      exact .inr (later awake)

/-- What need not wait any longer below a place need not in the whole. -/
theorem mem_awake_append (there : whole.at? path = some deep)
    (awake : way ∈ deep.awake (contextAt c whole path) w) : path ++ way ∈ whole.awake c w := by
  induction path generalizing c whole with
  | nil =>
    obtain rfl : whole = deep := by simpa using there
    simpa using awake
  | cons i path ih =>
    cases whole with
    | joining stage agent runs failure =>
      simp only [at?] at there
      split at there
      next inner found =>
        rw [contextAt_cons found] at awake
        have below := mem_awakeAmong (i := 0) (by simpa using found)
          (by simpa using ih there awake)
        simpa [StageRun.awake] using below
      next => cases there
    | _ => cases there

/-- What is wanted at some time under some token is wanted at any time under any token, or it has
waited before and need not any longer. -/
theorem Wants.anywhere (h : whole.Wants c w path) (c' : Context) (w' : World) :
    whole.Wants c' w' path ∨ path ∈ whole.awake c w := by
  obtain ⟨run, there, stirring | awake⟩ := h
  · exact .inl ⟨run, there, .inl stirring⟩
  · right
    rw [← List.append_nil path]
    refine mem_awake_append there ?_
    cases run with
    | working stage agent branches own =>
      have awake : own.isAwake (contextAt c whole path) w = true := awake
      simp [StageRun.awake, awake]
    | _ => cases awake

theorem Wants.congr (h : whole.Wants c w' path) (clock : w'.clock = w.clock) :
    whole.Wants c w path := by
  obtain ⟨run, there, wants⟩ := h
  refine ⟨run, there, wants.imp_right fun awake => ?_⟩
  cases run with
  | working stage agent branches own =>
    have awake : own.isAwake _ w' = true := awake
    exact (OwnSteps.isAwake_congr clock own).symm.trans awake
  | _ => cases awake

theorem clock_of_move (moved : run.move c w path = .moved w' run') : w'.clock = w.clock := by
  have turned := run.move_atOnce (c := c) (w := w) path
  rw [moved] at turned
  exact turned.1

theorem live_of_move (moved : run.move c w path = .moved w' run') : run'.output? = none := by
  cases left : run'.output? with
  | none => rfl
  | some output => exact absurd (output?_eq_some.mp left) (unreceived_of_move moved output).2

/-- A turn below a place is a turn of what is there, and what is wanted elsewhere behind it was
wanted before. -/
theorem move_below (there : whole.at? path = some deep) (unsettled : deep.isSettled = false)
    (moved : whole.move c w (path ++ way) = .moved w' run') :
    ∃ deep', deep.move (contextAt c whole path) w way = .moved w' deep' ∧
      run'.at? path = some deep' ∧ contextAt c run' path = contextAt c whole path ∧
      ∀ place, run'.Wants c w' place → whole.Wants c w place ∨
        ∃ rest, place = path ++ rest ∧ deep'.Wants (contextAt c whole path) w' rest := by
  induction path generalizing c whole run' with
  | nil =>
    obtain rfl : whole = deep := by simpa using there
    exact ⟨run', by simpa using moved, at?_nil _, by simp, fun place h => .inr ⟨place, by simpa⟩⟩
  | cons i path ih =>
    cases whole with
    | joining stage agent runs failure =>
      simp only [at?] at there
      split at there
      next inner found =>
        cases turned_of_move moved with
        | receives settled =>
          obtain rfl := Option.some.inj (found.symm.trans settled)
          obtain rfl := at?_settled there
          cases unsettled
        | @inside _ _ _ _ _ _ run₁ run₁' _ same _ moved₁ =>
          obtain rfl := Option.some.inj (found.symm.trans same)
          obtain ⟨deep', below, at_, around, wanted⟩ := ih there moved₁
          have found' := set_there found run₁'
          refine ⟨deep', ?_, ?_, ?_, fun place h => ?_⟩
          · rwa [contextAt_cons found]
          · rwa [at?_joining found']
          · rw [contextAt_cons found', contextAt_cons found, around]
          · cases place with
            | nil =>
              have open_ : (joining stage agent (runs.set i run₁') failure).Waits [] :=
                waits_above (by simpa using at?_joining found' stage agent failure [])
                  (live_of_move moved₁)
              exact absurd h open_.settled
            | cons j place =>
              obtain ⟨r, branch, h⟩ := (wants_cons j place).mp h
              by_cases hj : i = j
              · subst hj
                obtain rfl := Option.some.inj (found'.symm.trans branch)
                rw [contextAt_cons found, wants_cons]
                refine (wanted place h).imp (fun earlier => ⟨_, found, earlier⟩) ?_
                rintro ⟨rest, rfl, new⟩
                exact ⟨rest, rfl, new⟩
              · rw [List.getElem?_set_ne hj] at branch
                exact .inl ((wants_cons j place).mpr
                  ⟨r, branch, h.congr (clock_of_move moved₁)⟩)
      next => cases there
    | _ => cases there

/-- Nothing is under way below what has no branches. -/
theorem at?_of_no_branches (alone : run.outstanding? = none) (i : Nat) (way : List Nat) :
    run.at? (i :: way) = none := by
  cases run with
  | joining => cases alone
  | _ => rfl

theorem Wants.alone (h : run.Wants c w path) (alone : run.outstanding? = none) : path = [] := by
  obtain ⟨deep, there, -⟩ := h
  cases path with
  | nil => rfl
  | cons i way => cases (at?_of_no_branches alone i way).symm.trans there

/-- A turn of a stage itself may only open its branches. -/
theorem branches_of_moveHere (moved : run.move c w [] = .moved w' run') :
    run'.outstanding? = none ∨ run.outstanding? = none ∧
      ∃ (stage : Stage) (agent : Agent) (branches : List Stage),
        run' = joining stage agent (branches.map fun branch => fresh branch agent) none := by
  have alone (stage : Stage) (agent : Agent) (branches : Option StageResults) :
      (ownSteps stage agent branches).outstanding? = none :=
    ownSteps_cases branches (fun _ => rfl) rfl
  cases turned_of_move moved with
  | enters =>
    refine enter_cases (fun _ => ?_) ?_
    · exact .inl (alone _ _ _)
    · exact .inr ⟨rfl, _, _, _, rfl⟩
  | leaves all =>
    refine leaveJoin_cases _ _ (fun _ _ _ => ?_) fun _ _ => ?_
    · exact .inl rfl
    · exact .inl (alone _ _ _)
  | works | settles => exact .inl rfl

/-- Branches that have just come into being want their turns, and nothing does below them. -/
theorem Wants.of_opened {stage : Stage} {agent : Agent} {branches : List Stage}
    (h : Wants c w (joining stage agent (branches.map fun branch => fresh branch agent) none) path) :
    path = [] ∨ ∃ i < branches.length, path = [i] := by
  cases path with
  | nil => exact .inl rfl
  | cons i way =>
    obtain ⟨run, opened, inner⟩ := (wants_cons i way).mp h
    rw [List.getElem?_map] at opened
    obtain ⟨branch, there, rfl⟩ := Option.map_eq_some_iff.mp opened
    obtain rfl := inner.alone rfl
    exact .inr ⟨i, (List.getElem?_eq_some_iff.mp there).1, rfl⟩

/-- Where a turn finds nothing to do, none is wanted. -/
theorem blocked_at (there : whole.at? path = some deep) (unsettled : whole.isSettled = false)
    (blocked : whole.move c w path = .blocked) : ¬whole.Wants c w path := by
  induction path generalizing c whole with
  | nil =>
    rw [move, moveHere_eq_blocked unsettled] at blocked
    simpa [Wants] using blocked
  | cons i path ih =>
    cases whole with
    | joining stage agent runs failure =>
      simp only [at?] at there
      split at there
      next inner found =>
        rw [wants_cons]
        rintro ⟨run, same, wants⟩
        obtain rfl := Option.some.inj (found.symm.trans same)
        rw [move, found] at blocked
        split at blocked
        next none_ => cases none_
        next => cases blocked
        next run unsettled₁ same =>
          obtain rfl := Option.some.inj same
          refine ih there (isSettled_eq_false unsettled₁) ?_ wants
          refine Turn.eq_blocked (fun w₁ run₁ turn => ?_) fun w₁ reason held turn => ?_
          · simp [turn, followBranch] at blocked
          · simp [turn, followBranch] at blocked
      next => cases there
    | _ => cases there

/-- When a join receives a branch nothing more is wanted of the branch, and what is wanted elsewhere
was wanted before, or has waited and is called now. -/
theorem move_receives {output : StageOutput} {outcome : Option StepError}
    (there : whole.at? path = some (joining stage agent runs failure))
    (found : runs[i]? = some (settled output outcome))
    (moved : whole.move c w (path ++ [i]) = .moved w' run') :
    run'.at? path =
        some (joining stage agent (runs.set i (received output)) (failure.or outcome)) ∧
      (∀ way, ¬run'.Wants c w' (path ++ i :: way)) ∧
      ∀ place, run'.Wants c w' place →
        whole.Wants c w place ∨ place ∈ run'.awake c w' ∨ place = path := by
  obtain ⟨joined, moved', there', around, wanted⟩ := move_below there rfl moved
  rw [move, found] at moved'
  obtain rfl := (Turn.moved.inj moved').2
  have gone (context : Context) (way : List Nat) : ¬(received output).Wants context w' way := by
    rintro ⟨run, at_, wants⟩
    obtain rfl := at?_received at_
    simp [isStirring, isAwake] at wants
  refine ⟨there', fun way h => ?_, fun place h => ?_⟩
  · rw [wants_append there', wants_cons] at h
    obtain ⟨run, same, h⟩ := h
    obtain rfl := Option.some.inj ((set_there found _).symm.trans same)
    exact gone _ _ h
  · rcases wanted place h with earlier | ⟨rest, rfl, new⟩
    · exact .inl earlier
    cases rest with
    | nil => exact .inr (.inr (List.append_nil _))
    | cons j rest =>
      obtain ⟨run, branch, new⟩ := (wants_cons j rest).mp new
      by_cases hj : i = j
      · subst hj
        obtain rfl := Option.some.inj ((set_there found _).symm.trans branch)
        exact absurd new (gone _ _)
      have branch' := branch
      rw [List.getElem?_set_ne hj] at branch'
      rcases new.anywhere (Context.inside (contextAt c whole path) stage failure j) w with
        earlier | awake
      · exact .inl ((wants_append there _).mpr ((wants_cons j rest).mpr ⟨run, branch', earlier⟩))
      · have below : run'.at? (path ++ [j]) = some run := by
          simp [at?_append, there', at?_joining branch]
        refine .inr (.inl ?_)
        rw [List.append_cons]
        refine mem_awake_append below ?_
        rwa [contextAt_append there', around, contextAt_cons branch, contextAt_nil]

theorem waits_of_outstanding {branches : Nat} (there : whole.at? path = some run)
    (some : run.outstanding? = some branches) (left : branches ≠ 0) : whole.Waits path := by
  cases run with
  | joining stage agent runs failure =>
    refine ⟨stage, agent, runs, failure, there, ?_⟩
    simp only [outstanding?, Option.some.injEq] at some
    rw [← Option.not_isSome_iff_eq_none, Option.isSome_iff_exists]
    rintro ⟨outputs, all⟩
    rw [outputs?_eq_some] at all
    simp [← some, all, output?] at left
  | _ => cases some

end StageRun

end PipelineRunner
