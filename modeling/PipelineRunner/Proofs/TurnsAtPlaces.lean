import PipelineRunner.Proofs.ExecutionRuns

/-! Whatever is noted at a stage, however deep, is noted in a turn of that very stage, which finds
around it what the joins on the way down hand on: a token that is cancelled once one of them has
failed, and whether the innermost one interrupts its branches. -/

namespace PipelineRunner

/-- Whether an event is noted at stages only, and is no aside. -/
def Event.isOfStage : Event → Bool
  | .entered _ => false
  | event => !event.isAside

/-- Nothing of this kind is noted of the workflow as a whole. -/
theorem World.NotesWhole.not_ofStage {w w' : World} {workflow : String} {news : List Record}
    {r : Record} (h : w.NotesWhole workflow w')
    (noted : w'.history = news.reverse ++ w.history) (mem : r ∈ news)
    (own : r.event.isOfStage = true) : False := by
  rcases (h.of_news noted r mem).2 with aside | ⟨-, state, entered⟩
  · cases h : r.event <;> simp_all [Event.isOfStage, Event.isAside]
  · simp [entered, Event.isOfStage] at own

namespace StageRun

variable {c : Context} {run run' deep : StageRun} {w w' : World} {path way : List Nat}
  {news : List Record} {r : Record} {stage : Stage} {agent : Agent} {runs : List StageRun}
  {failure : Option StepError} {i : Nat}

@[simp] theorem at?_nil (run : StageRun) : run.at? [] = some run := by simp [at?]

@[simp] theorem contextAt_nil (c : Context) (run : StageRun) : contextAt c run [] = c := by
  cases run <;> rfl

/-- A place further down is a place in what is under way at a place on the way. -/
theorem at?_append (run : StageRun) (path way : List Nat) :
    run.at? (path ++ way) = (run.at? path).bind (·.at? way) := by
  induction path generalizing run with
  | nil => simp
  | cons i path ih =>
    cases run with
    | joining stage agent runs failure =>
      simp only [List.cons_append, at?]
      cases runs[i]? with
      | none => rfl
      | some run => exact ih run
    | _ => rfl

/-- What is around a stage is what its innermost join hands on. -/
theorem contextAt_append (there : run.at? path = some deep) (way : List Nat) :
    contextAt c run (path ++ way) = contextAt (contextAt c run path) deep way := by
  induction path generalizing c run with
  | nil =>
    obtain rfl : run = deep := by simpa using there
    simp
  | cons i path ih =>
    cases run with
    | joining stage agent runs failure =>
      simp only [at?] at there
      simp only [List.cons_append, contextAt]
      split at there
      next inner found => simpa only [found] using ih there
      next => cases there
    | _ => cases there

theorem contextAt_cons (there : runs[i]? = some run) (way : List Nat) :
    contextAt c (joining stage agent runs failure) (i :: way) =
      contextAt (Context.inside c stage failure i) run way := by
  simp [contextAt, there]

/-- A token that is cancelled is cancelled further down. -/
theorem contextAt_cancelled (h : c.cancelled = true) (run : StageRun) (path : List Nat) :
    (contextAt c run path).cancelled = true := by
  induction path generalizing c run with
  | nil => simpa using h
  | cons i path ih =>
    cases run with
    | joining stage agent runs failure =>
      simp only [contextAt]
      split
      next inner _ => exact ih (by simp [Context.inside, h]) inner
      next => exact h
    | _ => exact h

/-- Above a place that is under way there are joins only. -/
theorem joining_of_at?_append (there : run.at? (path ++ i :: way) = some deep) :
    ∃ stage agent runs failure inner, run.at? path = some (joining stage agent runs failure) ∧
      runs[i]? = some inner ∧ inner.at? way = some deep := by
  rw [at?_append] at there
  obtain ⟨whole, above, below⟩ := Option.bind_eq_some_iff.mp there
  cases whole with
  | joining stage agent runs failure =>
    simp only [at?] at below
    split at below
    next inner found => exact ⟨stage, agent, runs, failure, inner, above, found, below⟩
    next => cases below
  | _ => cases below

/-- What is noted at a place is noted in a turn of what is under way there. -/
theorem turn_at (moved : run.move c w path = .moved w' run')
    (noted : w'.history = news.reverse ++ w.history) (mem : r ∈ news)
    (place : r.place = c.place.below way) :
    ∃ deep deep' path', run.at? way = some deep ∧ run'.at? way = some deep' ∧
      (contextAt c run way).place = c.place.below way ∧
      deep.move (contextAt c run way) w path' = .moved w' deep' ∧
      along way [⟨path, run, run', news⟩] = [⟨path', deep, deep', news⟩] := by
  induction way generalizing c run run' path with
  | nil => exact ⟨run, run', path, by simp, by simp, by simp, by simpa using moved, rfl⟩
  | cons i way ih =>
    have elsewhere (here : r.place = c.place) : False :=
      Place.below_cons_ne c.place i way (place.symm.trans here)
    cases turned_of_move moved with
    | enters | leaves | works | settles => exact (elsewhere (place_here moved noted r mem)).elim
    | receives => exact (elsewhere (place_received noted r mem)).elim
    | @inside stage agent runs failure j path run₁ run₁' _ there unsettled inner =>
      obtain ⟨way', below⟩ := (place_of_moved inner noted).imp fun _ below => below r mem
      have same : c.place.below (i :: way) = c.place.below (j :: way') := by
        rw [← place, below]
        simp [Context.inside]
      obtain ⟨rfl, rfl⟩ := List.cons.inj (Place.below_injective same)
      obtain ⟨deep, deep', path', at_, at', place', moved', past⟩ := ih inner below
      rw [contextAt_cons there]
      refine ⟨deep, deep', path', ?_, ?_, ?_, moved', ?_⟩
      · rw [at?_joining there, at_]
      · rw [at?_joining (set_there there run₁'), at']
      · rw [place']
        simp [Context.inside]
      · rw [along, ← past]
        exact congrArg (along way) (within_concat_inside there unsettled [] path run₁' news)

end StageRun

namespace Execution

variable {engine : Engine} {pipeline : Pipeline} {properties : Properties} {state : StateCell}
  {past before after : List Moment} {e e' : Execution} {path way : List Nat} {w w' : World}
  {i : Nat} {m : Moment} {r : Record} {news : List Record} {deep : StageRun}

theorem pastAt_append (past more : List Moment) (path : List Nat) :
    pastAt (past ++ more) path = pastAt past path ++ pastAt more path := by
  cases path with
  | nil => rfl
  | cons i way => simp [pastAt, inStage, StageRun.along_append]

/-- Each turn of a run was had from a run that came before it. -/
theorem Run.split (so : Run engine pipeline properties state past e)
    (h : past = before ++ m :: after) :
    ∃ w w', Run engine pipeline properties state before m.before ∧
      m.before.move engine w m.path = .moved w' m.after ∧
      w'.history = m.news.reverse ++ w.history := by
  induction so generalizing after with
  | begins => simp at h
  | called so rota ih => exact ih h
  | turn so moved noted ih =>
    rcases List.eq_nil_or_concat after with rfl | ⟨init, last, rfl⟩
    · obtain ⟨rfl, hm⟩ := List.append_inj' h rfl
      obtain rfl := (List.cons.inj hm).1
      exact ⟨_, _, so, moved, noted⟩
    · rw [List.concat_eq_append, ← List.cons_append, ← List.append_assoc] at h
      exact ih (List.append_inj' h rfl).1

/-- All that a turn notes at stages it notes at one of them. -/
theorem one_place {s : Record} (moved : e.move engine w path = .moved w' e')
    (noted : w'.history = news.reverse ++ w.history) (hr : r ∈ news) (hs : s ∈ news)
    (own : r.event.isOfStage = true) : r.place = s.place := by
  cases turned_of_move moved with
  | refused | succeeds =>
    obtain rfl : news = [] := by simpa using noted
    cases hr
  | begins _ _ notes | finishes _ notes | starts _ notes | fails _ notes =>
    exact (notes.not_ofStage noted hr own).elim
  | inside phase unsettled inner =>
    obtain ⟨way, below⟩ := StageRun.place_of_moved inner noted
    rw [below r hr, below s hs]

/-- What is noted at a stage is noted in a turn of that stage. -/
theorem turn_at (moved : e.move engine w path = .moved w' e')
    (noted : w'.history = news.reverse ++ w.history) (mem : r ∈ news)
    (own : r.event.isOfStage = true) :
    ∃ deep deep' path', e.stageAt? r.place.path = some deep ∧
      e'.stageAt? r.place.path = some deep' ∧
      (e.contextAt engine r.place.path).place = r.place ∧
      deep.move (e.contextAt engine r.place.path) w path' = .moved w' deep' ∧
      pastAt [⟨path, e, e', news⟩] r.place.path = [⟨path', deep, deep', news⟩] := by
  cases turned_of_move moved with
  | refused | succeeds =>
    obtain rfl : news = [] := by simpa using noted
    cases mem
  | begins _ _ notes | finishes _ notes | starts _ notes | fails _ notes =>
    exact (notes.not_ofStage noted mem own).elim
  | @inside workflow index name run run' todo results _ phase unsettled inner =>
    obtain ⟨way, below⟩ := (StageRun.place_of_moved inner noted).imp fun _ below => below r mem
    obtain ⟨deep, deep', path', there, there', place, moved', past⟩ :=
      StageRun.turn_at inner noted mem below
    have at_ : r.place.path = index :: way := by simp [below, Place.below]
    rw [at_]
    refine ⟨deep, deep', path', ?_, ?_, ?_, ?_, ?_⟩
    · rw [stageAt?_inStage way phase, there]
    · rw [stageAt?_inStage way rfl, there']
    · simpa [contextAt, phase, below] using place
    · simpa [contextAt, phase] using moved'
    · rw [pastAt, ← past]
      exact congrArg (StageRun.along way) (by simp [inStage, Moment.inStage?, phase])

/-- What is noted at a stage is noted in a turn of its run, as that was then. -/
theorem Run.turn_of_record (so : Run engine pipeline properties state past e)
    (split : past = before ++ m :: after) (mem : r ∈ m.news) (own : r.event.isOfStage = true) :
    ∃ stage around w w' deep deep' path', properties.workflowId = .ok r.place.workflow ∧
      pipeline.stageAt? r.place.path = some (stage, around) ∧
      m.before.stageAt? r.place.path = some deep ∧
      StageRun.Run stage around (m.before.contextAt engine r.place.path)
        (pastAt before r.place.path) deep ∧
      (m.before.contextAt engine r.place.path).place = r.place ∧
      deep.move (m.before.contextAt engine r.place.path) w path' = .moved w' deep' ∧
      w'.history = m.news.reverse ++ w.history ∧
      ⟨path', deep, deep', m.news⟩ ∈ pastAt past r.place.path := by
  obtain ⟨w, w', earlier, moved, noted⟩ := so.split split
  obtain ⟨deep, deep', path', there, -, place, moved', had⟩ := turn_at moved noted mem own
  obtain ⟨workflow, stage, around, known, declared⟩ := earlier.declared there
  obtain ⟨c, run, inner, -, here, stands⟩ := earlier.descend known declared
  -- Neither the entering of a stage nor anything behind its end leaves a record.
  obtain ⟨rfl, rfl⟩ := stands.of_there there
    (by
      rintro s a rfl
      cases StageRun.turned_of_move moved' with
      | enters =>
        have silent : m.news = [] := by simpa using noted
        simp [silent] at mem)
    (by
      rintro output rfl
      cases StageRun.turned_of_move moved')
  refine ⟨stage, around, w, w', run, deep', path', ?_, declared, there, inner, place, moved', noted,
    ?_⟩
  · rw [← place, here]
    exact known
  · rw [split, List.append_cons, pastAt_append, pastAt_append, had]
    simp

end Execution
end PipelineRunner
