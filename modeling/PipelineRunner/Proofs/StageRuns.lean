import PipelineRunner.Proofs.Turns

/-! Runs of a stage beside others. Turns come in any order and at any places, each in whatever world
it finds, and the token of the stage may be cancelled at any time. The main fact is that a run of a
stage is made of runs of its branches: what is proved of the stage itself, from its own turns,
then holds at every depth. -/

namespace PipelineRunner

/-- The place some branches further down. -/
def Place.below (p : Place) (path : List Nat) : Place := { p with path := p.path ++ path }

@[simp] theorem Place.below_nil (p : Place) : p.below [] = p := by simp [Place.below]

@[simp] theorem Place.branch_below (p : Place) (i : Nat) (path : List Nat) :
    (p.branch i).below path = p.below (i :: path) := by simp [Place.below, Place.branch]

theorem Place.below_cons_ne (p : Place) (i : Nat) (path : List Nat) : p.below (i :: path) ≠ p := by
  intro h
  have := congrArg (·.path.length) h
  simp [Place.below] at this

theorem Place.below_injective {p : Place} {path path' : List Nat}
    (h : p.below path = p.below path') : path = path' := by
  simpa [Place.below] using h

/-- What was noted at a place, without asides. -/
def marksAt (place : Place) (records : List Record) : List Event :=
  marks (records.filter fun r => r.place = place)

/-- The records of a place, without asides. -/
def recordsAt (place : Place) (records : List Record) : List Record :=
  records.filter fun r => r.place = place ∧ r.event.isAside = false

theorem marksAt_eq (place : Place) (records : List Record) :
    marksAt place records = (recordsAt place records).map (·.event) := by
  rw [marksAt, marks, List.filter_map, List.filter_filter, recordsAt]
  congr 1
  exact List.filter_congr fun r _ => by simp [Bool.and_comm]

@[simp] theorem recordsAt_append (place : Place) (xs ys : List Record) :
    recordsAt place (xs ++ ys) = recordsAt place xs ++ recordsAt place ys := by simp [recordsAt]

theorem recordsAt_elsewhere {place : Place} {records : List Record}
    (h : ∀ r ∈ records, r.place ≠ place) : recordsAt place records = [] := by
  rw [recordsAt, List.filter_eq_nil_iff]
  intro r mem
  simp [h r mem]

@[simp] theorem marksAt_append (place : Place) (xs ys : List Record) :
    marksAt place (xs ++ ys) = marksAt place xs ++ marksAt place ys := by simp [marksAt]

theorem World.Notes.marksAt {w w' : World} {place : Place} {events : List Event}
    {news : List Record} (h : w.Notes place events w')
    (noted : w'.history = news.reverse ++ w.history) : marksAt place news = events := by
  obtain ⟨here, marked⟩ := h.of_news noted
  rw [PipelineRunner.marksAt, List.filter_eq_self.mpr (by simpa using here), marked]

theorem marksAt_elsewhere {place : Place} {records : List Record}
    (h : ∀ r ∈ records, r.place ≠ place) : marksAt place records = [] := by
  rw [marksAt, List.filter_eq_nil_iff.mpr (by simpa using h), marks_nil]

theorem marksAt_split {before after : List Record} {r : Record}
    (notable : r.event.isAside = false) :
    marksAt r.place (before ++ r :: after) =
      marksAt r.place before ++ r.event :: marksAt r.place after := by
  simp [marksAt, marks, notable]

theorem mem_marksAt {records : List Record} {r : Record} (mem : r ∈ records)
    (notable : r.event.isAside = false) : r.event ∈ marksAt r.place records := by
  simp only [marksAt, marks, List.mem_filter, List.mem_map]
  exact ⟨⟨r, ⟨mem, by simp⟩, rfl⟩, by simp [notable]⟩

theorem exists_of_mem_marksAt {place : Place} {records : List Record} {event : Event}
    (mem : event ∈ marksAt place records) :
    ∃ r ∈ records, r.place = place ∧ r.event = event ∧ event.isAside = false := by
  simp only [marksAt, marks, List.mem_filter, List.mem_map] at mem
  obtain ⟨⟨r, ⟨mem, place⟩, rfl⟩, notable⟩ := mem
  exact ⟨r, mem, by simpa using place, rfl, by simpa using notable⟩

/-- The stage some branches further down, with the agent around it. -/
def Stage.at? (stage : Stage) (inherited : Agent) : List Nat → Option (Stage × Agent)
  | [] => some (stage, inherited)
  | i :: path =>
    match stage.parallel[i]? with
    | some branch => branch.at? (stage.effectiveAgent inherited) path
    | none => none

namespace StageRun

/-- A turn that was had: where, what it found and left, and what it noted. -/
structure Moment where
  path : List Nat
  before : StageRun
  after : StageRun
  news : List Record

/-- The runs of a stage under a token, as long as nothing breaks down. -/
inductive Run (stage : Stage) (inherited : Agent) : Context → List Moment → StageRun → Prop where
  | begins (c : Context) : Run stage inherited c [] (fresh stage inherited)
  | cancelled {c : Context} {past : List Moment} {run : StageRun}
      (so : Run stage inherited c past run) :
      Run stage inherited { c with cancelled := true } past run
  | turn {c : Context} {past : List Moment} {run run' : StageRun} {path : List Nat}
      {w w' : World} {news : List Record} (so : Run stage inherited c past run)
      (moved : run.move c w path = .moved w' run')
      (noted : w'.history = news.reverse ++ w.history) :
      Run stage inherited c (past ++ [⟨path, run, run', news⟩]) run'

/-- All that was noted. -/
def records (past : List Moment) : List Record := past.flatMap (·.news)

@[simp] theorem records_nil : records [] = [] := rfl

@[simp] theorem records_concat (past : List Moment) (m : Moment) :
    records (past ++ [m]) = records past ++ m.news := by simp [records]

/-- Each turn of a run was had from a run that came before it. -/
theorem Run.split {stage : Stage} {inherited : Agent} {c : Context}
    {past before after : List Moment} {run : StageRun} {m : Moment} (so : Run stage inherited c past run)
    (h : past = before ++ m :: after) :
    ∃ c' w w', Run stage inherited c' before m.before ∧
      m.before.move c' w m.path = .moved w' m.after ∧ w'.history = m.news.reverse ++ w.history ∧
      c'.engine = c.engine ∧ c'.place = c.place := by
  induction so generalizing after with
  | begins c => simp at h
  | cancelled so ih =>
    obtain ⟨c', w, w', rest⟩ := ih h
    exact ⟨c', w, w', rest⟩
  | turn so moved noted ih =>
    rcases List.eq_nil_or_concat after with rfl | ⟨init, last, rfl⟩
    · obtain ⟨rfl, hm⟩ := List.append_inj' h rfl
      obtain rfl := (List.cons.inj hm).1
      exact ⟨_, _, _, so, moved, noted, rfl, rfl⟩
    · rw [List.concat_eq_append, ← List.cons_append, ← List.append_assoc] at h
      exact ih (List.append_inj' h rfl).1

/-- How a run of a stage may look. -/
def Shape (stage : Stage) (inherited : Agent) : StageRun → Prop
  | fresh s a => stage = s ∧ inherited = a
  | joining s a runs _ =>
    stage = s ∧ stage.effectiveAgent inherited = a ∧ runs.length = stage.parallel.length
  | working s a _ _ => stage = s ∧ stage.effectiveAgent inherited = a
  | settled .. => True
  | received _ => False

variable {stage : Stage} {inherited agent : Agent} {c : Context} {past : List Moment}
  {run run' whole : StageRun} {w w' : World} {path : List Nat} {news : List Record}
  {failure outcome : Option StepError} {i : Nat}

theorem shape_ownSteps (branches : Option StageResults) :
    Shape stage inherited (ownSteps stage (stage.effectiveAgent inherited) branches) :=
  ownSteps_cases branches (fun _ => trivial) ⟨rfl, rfl⟩

theorem Run.shape (so : Run stage inherited c past run) : Shape stage inherited run := by
  induction so with
  | begins c => exact ⟨rfl, rfl⟩
  | cancelled so ih => exact ih
  | turn so moved noted ih =>
    cases turned_of_move moved with
    | enters =>
      obtain ⟨rfl, rfl⟩ := ih
      exact enter_cases (fun _ => shape_ownSteps none) ⟨rfl, rfl, by simp⟩
    | leaves all =>
      obtain ⟨rfl, rfl, -⟩ := ih
      exact leaveJoin_cases _ _ (fun _ _ _ => trivial) fun _ => shape_ownSteps
    | works noted goes => exact ih
    | settles noted ends => trivial
    | receives there => exact ⟨ih.1, ih.2.1, by simpa using ih.2.2⟩
    | inside there unsettled moved => exact ⟨ih.1, ih.2.1, by simpa using ih.2.2⟩

/-! ### Branches -/

/-- The branch at a position, while branches are under way. -/
def branch? : StageRun → Nat → Option StageRun
  | joining _ _ runs _, i => runs[i]?
  | _, _ => none

/-- A turn as a branch has had it. That its end is taken notice of is no turn of the branch. -/
def Moment.within? (i : Nat) (m : Moment) : Option Moment :=
  match m.path with
  | [] => none
  | j :: path =>
    if j = i then
      match m.before.branch? i, m.after.branch? i with
      | some before, some after =>
        if before.isSettled then none else some ⟨path, before, after, m.news⟩
      | _, _ => none
    else none

/-- The past of a branch. -/
def within (i : Nat) (past : List Moment) : List Moment := past.filterMap (·.within? i)

theorem within_concat (past : List Moment) (m : Moment) :
    within i (past ++ [m]) = within i past ++ (m.within? i).toList := by
  cases h : m.within? i <;> simp [within, h]

/-- A turn of the stage itself is no turn of a branch. -/
theorem within_concat_here (past : List Moment) (before after : StageRun) (news : List Record) :
    within i (past ++ [⟨[], before, after, news⟩]) = within i past := by
  simp [within_concat, Moment.within?]

/-- Neither is a turn of another branch. -/
theorem within_concat_other {j : Nat} (hj : j ≠ i) (past : List Moment) (path : List Nat)
    (before after : StageRun) (news : List Record) :
    within i (past ++ [⟨j :: path, before, after, news⟩]) = within i past := by
  simp [within_concat, Moment.within?, hj]

theorem set_there {runs : List StageRun} (there : runs[i]? = some run) (run' : StageRun) :
    (runs.set i run')[i]? = some run' :=
  List.getElem?_set_self (List.getElem?_eq_some_iff.mp there).1

theorem within_concat_received {runs : List StageRun} {output : StageOutput}
    (there : runs[i]? = some (settled output outcome)) (past : List Moment) (path : List Nat)
    (after : StageRun) (news : List Record) :
    within i (past ++ [⟨i :: path, joining stage agent runs failure, after, news⟩]) =
      within i past := by
  have hb : (joining stage agent runs failure).branch? i = some (settled output outcome) := there
  cases ha : after.branch? i <;> simp [within_concat, Moment.within?, hb, ha, isSettled]

theorem within_concat_inside {runs : List StageRun} (there : runs[i]? = some run)
    (unsettled : run.isSettled = false) (past : List Moment) (path : List Nat)
    (run' : StageRun) (news : List Record) :
    within i (past ++ [⟨i :: path, joining stage agent runs failure,
        joining stage agent (runs.set i run') failure, news⟩]) =
      within i past ++ [⟨path, run, run', news⟩] := by
  simp only [within_concat, Moment.within?, branch?, there, set_there there, unsettled]
  rfl

/-- Whether the branches of a stage, if it has any, are behind it. -/
def isPastBranches : StageRun → Bool
  | working .. => true
  | settled .. => true
  | _ => false

/-- How the run of a branch stands to the run of the stage around it. -/
inductive Holds (i : Nat) (branch : Stage) (agent : Agent) :
    StageRun → Option StepError → StageRun → List Moment → Prop where
  | unborn {stage : Stage} {inherited : Agent} {past : List Moment} (idle : past = []) :
      Holds i branch agent (fresh stage inherited) none (fresh branch agent) past
  | underWay {stage : Stage} {runs : List StageRun} {failure : Option StepError}
      {run : StageRun} {past : List Moment} (there : runs[i]? = some run) :
      Holds i branch agent (joining stage agent runs failure) failure run past
  | heard {stage : Stage} {runs : List StageRun} {failure outcome : Option StepError}
      {output : StageOutput} {past : List Moment} (there : runs[i]? = some (received output)) :
      Holds i branch agent (joining stage agent runs failure) failure (settled output outcome) past
  | through {whole : StageRun} {failure outcome : Option StepError} {output : StageOutput}
      {past : List Moment} (through : whole.isPastBranches = true) :
      Holds i branch agent whole failure (settled output outcome) past

theorem ownSteps_isPastBranches (branches : Option StageResults) :
    (ownSteps stage agent branches).isPastBranches = true :=
  ownSteps_cases branches (fun _ => rfl) rfl

theorem leaveJoin_isPastBranches (outputs : List StageOutput) :
    (leaveJoin stage agent outputs failure).isPastBranches = true :=
  leaveJoin_cases outputs failure (fun _ _ _ => rfl) fun _ => ownSteps_isPastBranches

theorem output?_eq_some {output : StageOutput} :
    run.output? = some output ↔ run = received output := by
  cases run <;> simp [output?]

/-- A join is left when all its branches have been received. -/
theorem outputs?_eq_some {runs : List StageRun} {outputs : List StageOutput} :
    outputs? runs = some outputs ↔ runs = outputs.map received := by
  induction runs generalizing outputs with
  | nil => cases outputs <;> simp [outputs?]
  | cons run rest ih =>
    have step : outputs? (run :: rest) =
        run.output?.bind fun o => (outputs? rest).bind fun os => some (o :: os) := by
      simp only [outputs?, List.mapM_cons]
      rfl
    rw [step]
    cases outputs <;> simp [Option.bind_eq_some_iff, output?_eq_some, ih]

/-- The token of the branches is cancelled at the latest when a failure comes in. -/
theorem Run.hears {branch : Stage}
    (so : Run branch agent (Context.inside c stage failure i) past run) :
    Run branch agent (Context.inside c stage (failure.or outcome) i) past run := by
  cases failure with
  | some e => exact so
  | none =>
    cases outcome with
    | none => exact so
    | some e => simpa [Context.inside] using so.cancelled

/-- What becomes of another branch does not matter. -/
theorem Holds.elsewhere {branch : Stage} {runs : List StageRun} {around : Agent} {j : Nat}
    (holds : Holds i branch agent (joining stage around runs failure) outcome run past)
    (hj : j ≠ i) : failure = outcome ∧ ∀ (run' : StageRun) (failure : Option StepError),
      Holds i branch agent (joining stage around (runs.set j run') failure) failure run past := by
  cases holds with
  | through through => cases through
  | heard there => exact ⟨rfl, fun _ _ => .heard (by simp [hj, there])⟩
  | underWay there => exact ⟨rfl, fun _ _ => .underWay (by simp [hj, there])⟩

/-- A run of a stage is made of runs of its branches. -/
theorem Run.branch {branch : Stage} (so : Run stage inherited c past whole)
    (hb : stage.parallel[i]? = some branch) :
    ∃ failure run, Run branch (stage.effectiveAgent inherited) (Context.inside c stage failure i)
      (within i past) run ∧
      Holds i branch (stage.effectiveAgent inherited) whole failure run (within i past) := by
  induction so with
  | begins c => exact ⟨none, _, .begins _, .unborn rfl⟩
  | cancelled so ih =>
    obtain ⟨failure, run, inner, holds⟩ := ih
    exact ⟨failure, run, by simpa [Context.inside] using inner.cancelled, holds⟩
  | @turn c past whole whole' path w w' news so moved noted ih =>
    have shape := so.shape
    obtain ⟨failure, run, inner, holds⟩ := ih
    cases turned_of_move moved with
    | enters =>
      rw [within_concat_here]
      obtain ⟨rfl, rfl⟩ := shape
      cases holds with
      | through through => cases through
      | unborn idle =>
        refine ⟨none, _, inner, ?_⟩
        refine enter_cases (fun alone => ?_) (.underWay (by simp [hb]))
        simp [alone] at hb
    | leaves all =>
      rw [within_concat_here]
      obtain rfl := outputs?_eq_some.mp all
      cases holds with
      | through => exact ⟨_, _, inner, .through (leaveJoin_isPastBranches _)⟩
      | heard there => exact ⟨_, _, inner, .through (leaveJoin_isPastBranches _)⟩
      | underWay there =>
        simp only [List.getElem?_map, Option.map_eq_some_iff] at there
        obtain ⟨output, -, rfl⟩ := there
        exact inner.shape.elim
    | works noted goes =>
      rw [within_concat_here]
      cases holds with
      | through => exact ⟨_, _, inner, .through rfl⟩
    | settles noted ends =>
      rw [within_concat_here]
      cases holds with
      | through => exact ⟨_, _, inner, .through rfl⟩
    | @receives _ _ runs _ j way output outcome there =>
      obtain ⟨rfl, rfl, -⟩ := shape
      by_cases hj : j = i
      · subst hj
        rw [within_concat_received there]
        cases holds with
        | through through => cases through
        | heard earlier => simp [there] at earlier
        | underWay now =>
          obtain rfl := Option.some.inj (there.symm.trans now)
          exact ⟨_, _, inner.hears, .heard (set_there there _)⟩
      · rw [within_concat_other hj]
        obtain ⟨rfl, still⟩ := holds.elsewhere hj
        exact ⟨_, _, inner.hears, still _ _⟩
    | @inside _ _ runs _ j way run₁ run₁' _ there unsettled moved₁ =>
      obtain ⟨rfl, rfl, -⟩ := shape
      by_cases hj : j = i
      · subst hj
        rw [within_concat_inside there unsettled]
        cases holds with
        | through through => cases through
        | heard earlier =>
          obtain rfl := Option.some.inj (there.symm.trans earlier)
          cases turned_of_move moved₁
        | underWay now =>
          obtain rfl := Option.some.inj (there.symm.trans now)
          exact ⟨_, _, inner.turn moved₁ noted, .underWay (set_there there _)⟩
      · rw [within_concat_other hj]
        obtain ⟨rfl, still⟩ := holds.elsewhere hj
        exact ⟨_, _, inner, still _ _⟩

/-! ### Places -/

/-- A turn of a stage itself notes things at the stage only. -/
theorem place_here (moved : run.move c w [] = .moved w' run')
    (noted : w'.history = news.reverse ++ w.history) : ∀ r ∈ news, r.place = c.place := by
  cases turned_of_move moved with
  | enters | leaves all =>
    have silent : w.Notes c.place [] w := .nothing rfl
    exact (silent.of_news noted).1
  | works notes goes | settles notes ends => exact (notes.of_news noted).1

/-- So does its taking notice of the end of a branch. -/
theorem place_received {failed : Bool}
    (noted : (w.note c.place (.received i failed)).history = news.reverse ++ w.history) :
    ∀ r ∈ news, r.place = c.place := by
  have notes : w.Notes c.place [.received i failed] (w.note c.place (.received i failed)) :=
    World.notes_note rfl
  exact (notes.of_news noted).1

/-- A turn in a stage adds to the history. -/
theorem grows_of_move (moved : run.move c w path = .moved w' run') :
    ∃ news : List Record, w'.history = news.reverse ++ w.history := by
  induction path generalizing c run run' with
  | nil =>
    cases turned_of_move moved with
    | enters | leaves all => exact ⟨[], rfl⟩
    | works notes goes | settles notes ends =>
      obtain ⟨news, noted, -⟩ := notes
      exact ⟨news, noted⟩
  | cons i path ih =>
    cases turned_of_move moved with
    | receives there => exact ⟨[_], rfl⟩
    | inside there unsettled inner => exact ih inner

/-- Any turn in a stage notes things at one place only, at the stage or below it. -/
theorem place_of_moved (moved : run.move c w path = .moved w' run')
    (noted : w'.history = news.reverse ++ w.history) :
    ∃ way, ∀ r ∈ news, r.place = c.place.below way := by
  induction path generalizing c run run' with
  | nil => exact ⟨[], by simpa using place_here moved noted⟩
  | cons i path ih =>
    cases turned_of_move moved with
    | receives there => exact ⟨[], by simpa using place_received noted⟩
    | inside there unsettled inner =>
      obtain ⟨way, below⟩ := ih inner
      exact ⟨i :: way, by simpa [Context.inside] using below⟩

/-- A turn of a branch leaves no marks at the stage around it. -/
theorem marksAt_inside
    (moved : run.move (Context.inside c stage failure i) w path = .moved w' run')
    (noted : w'.history = news.reverse ++ w.history) : marksAt c.place news = [] := by
  obtain ⟨way, below⟩ := place_of_moved moved noted
  refine marksAt_elsewhere fun r mem here => ?_
  exact Place.below_cons_ne c.place i way
    (by simpa [Context.inside] using (below r mem).symm.trans here)

/-- What is noted below a branch is noted by the branch. -/
theorem Run.recordsAt_within (so : Run stage inherited c past whole) (i : Nat) (way : List Nat) :
    recordsAt (c.place.below (i :: way)) (records past) =
      recordsAt (c.place.below (i :: way)) (records (within i past)) := by
  induction so with
  | begins c => rfl
  | cancelled so ih => exact ih
  | @turn c past whole whole' path w w' news so moved noted ih =>
    rw [records_concat, recordsAt_append, ih]
    have here (h : ∀ r ∈ news, r.place = c.place) :
        recordsAt (c.place.below (i :: way)) news = [] :=
      recordsAt_elsewhere fun r hr => h r hr ▸ (Place.below_cons_ne _ _ _).symm
    cases turned_of_move moved with
    | enters | leaves all | works notes goes | settles notes ends =>
      rw [within_concat_here, here (place_here moved noted), List.append_nil]
    | @receives _ _ _ _ j _ _ _ there =>
      rw [here (place_received noted), List.append_nil]
      by_cases hj : j = i
      · subst hj
        rw [within_concat_received there]
      · rw [within_concat_other hj]
    | @inside _ _ _ _ j _ _ _ _ there unsettled inner =>
      by_cases hj : j = i
      · subst hj
        rw [within_concat_inside there unsettled, records_concat, recordsAt_append]
      · have elsewhere : recordsAt (c.place.below (i :: way)) news = [] := by
          refine recordsAt_elsewhere fun r hr hp => ?_
          obtain ⟨way', hw⟩ := (place_of_moved inner noted).imp fun _ below => below r hr
          have same : c.place.below (j :: way') = c.place.below (i :: way) := by
            rw [← hp, hw]
            simp [Context.inside]
          exact hj (List.cons.inj (Place.below_injective same)).1
        rw [within_concat_other hj, elsewhere, List.append_nil]

/-- Nothing is noted below a branch that does not exist. -/
theorem Run.within_missing (so : Run stage inherited c past whole)
    (missing : stage.parallel[i]? = none) : within i past = [] := by
  induction so with
  | begins c => rfl
  | cancelled so ih => exact ih
  | @turn c past whole whole' path w w' news so moved noted ih =>
    have shape := so.shape
    cases turned_of_move moved with
    | enters | leaves all | works notes goes | settles notes ends =>
      rw [within_concat_here, ih]
    | @receives _ _ runs _ j _ _ _ there =>
      by_cases hj : j = i
      · subst hj
        rw [within_concat_received there, ih]
      · rw [within_concat_other hj, ih]
    | @inside _ _ runs _ j _ _ _ _ there unsettled inner =>
      have hj : j ≠ i := by
        rintro rfl
        have := (List.getElem?_eq_some_iff.mp there).1
        have := List.getElem?_eq_none_iff.mp missing
        have := shape.2.2
        omega
      rw [within_concat_other hj, ih]

/-! ### Any depth -/

/-- The past of a stage some branches further down. -/
def along : List Nat → List Moment → List Moment
  | [], past => past
  | i :: path, past => along path (within i past)

@[simp] theorem along_nil (path : List Nat) : along path [] = [] := by
  induction path with
  | nil => rfl
  | cons i path ih => exact ih

theorem along_append (path : List Nat) (past more : List Moment) :
    along path (past ++ more) = along path past ++ along path more := by
  induction path generalizing past more with
  | nil => rfl
  | cons i path ih => simp only [along, within, List.filterMap_append, ih]

/-- What is around a stage some branches further down. -/
def contextAt (c : Context) : StageRun → List Nat → Context
  | joining stage _ runs failure, i :: path =>
    match runs[i]? with
    | some run => contextAt (Context.inside c stage failure i) run path
    | none => c
  | _, _ => c

/-- How the run of a stage some branches further down stands to the whole. -/
inductive Stands (c : Context) (whole : StageRun) (path : List Nat) (deep : Stage) (agent : Agent) :
    Context → StageRun → List Moment → Prop where
  | unborn {c' : Context} {past : List Moment} (idle : past = [])
      (absent : whole.at? path = none ∨ whole.at? path = some (fresh deep agent)) :
      Stands c whole path deep agent c' (fresh deep agent) past
  | there {c' : Context} {run : StageRun} {past : List Moment} (there : whole.at? path = some run)
      (around : contextAt c whole path = c') : Stands c whole path deep agent c' run past
  | through {c' : Context} {output : StageOutput} {outcome : Option StepError} {past : List Moment}
      (through : ∀ run, whole.at? path = some run → run = received output) :
      Stands c whole path deep agent c' (settled output outcome) past

theorem at?_settled {output : StageOutput} (h : (settled output outcome).at? path = some run) :
    run = settled output outcome := by
  cases path with
  | nil => exact (Option.some.inj h).symm
  | cons i path => cases h

theorem at?_received {output : StageOutput} (h : (received output).at? path = some run) :
    run = received output := by
  cases path with
  | nil => exact (Option.some.inj h).symm
  | cons i path => cases h

theorem at?_joining {runs : List StageRun} (there : runs[i]? = some run) (stage : Stage)
    (agent : Agent) (failure : Option StepError) (path : List Nat) :
    (joining stage agent runs failure).at? (i :: path) = run.at? path := by
  simp [at?, there]

theorem at?_pastBranches (h : whole.isPastBranches = true) (i : Nat) (path : List Nat) :
    whole.at? (i :: path) = none := by
  cases whole <;> first | rfl | cases h

theorem Run.of_idle (so : Run stage inherited c [] run) : run = fresh stage inherited := by
  generalize hp : ([] : List Moment) = past at so
  induction so with
  | begins c => rfl
  | cancelled so ih => exact ih hp
  | turn so moved noted ih => simp at hp

theorem Run.declared (so : Run stage inherited c past whole) (h : whole.at? path = some run) :
    ∃ deep around, stage.at? inherited path = some (deep, around) := by
  induction path generalizing stage inherited c past whole with
  | nil => exact ⟨_, _, rfl⟩
  | cons i path ih =>
    cases whole with
    | joining s a runs failure =>
      obtain ⟨rfl, -, size⟩ := so.shape
      simp only [at?] at h
      split at h
      next branchRun there =>
        have hb := List.getElem?_eq_getElem (size ▸ (List.getElem?_eq_some_iff.mp there).1)
        simp only [Stage.at?, hb]
        obtain ⟨failure', run', inner, holds⟩ := so.branch hb
        cases holds with
        | through through => cases through
        | heard earlier =>
          obtain rfl := Option.some.inj (there.symm.trans earlier)
          cases path with
          | nil => exact ⟨_, _, rfl⟩
          | cons j path => cases h
        | underWay now =>
          obtain rfl := Option.some.inj (there.symm.trans now)
          exact ih inner h
      next => cases h
    | _ => cases h

/-- From how a branch stands to the whole, and how something deep stands to the branch. -/
theorem Holds.stands {branch deep : Stage} {around : Agent} {c' : Context} {deepRun : StageRun}
    (shape : Shape stage inherited whole) (holds : Holds i branch around whole failure run past)
    (so : Run deep agent c' (along path past) deepRun)
    (stands : Stands (Context.inside c stage failure i) run path deep agent c' deepRun
      (along path past)) :
    Stands c whole (i :: path) deep agent c' deepRun (along path past) := by
  cases holds with
  | unborn idle =>
    subst idle
    rw [along_nil] at so ⊢
    obtain rfl := so.of_idle
    exact .unborn rfl (.inl rfl)
  | @underWay _ runs _ _ _ there =>
    obtain ⟨rfl, -, -⟩ := shape
    have down := at?_joining there stage around failure path
    cases stands with
    | unborn idle absent => exact .unborn idle (down ▸ absent)
    | there deepThere context =>
      exact .there (down ▸ deepThere) (by simpa [contextAt, there] using context)
    | through through => exact .through (down ▸ through)
  | heard there =>
    have down (stage : Stage) := at?_joining there stage around failure path
    cases stands with
    | unborn idle absent =>
      cases path with
      | nil => simp [at?] at absent
      | cons j path => exact .unborn idle (.inl (down _))
    | there deepThere context =>
      obtain rfl := at?_settled deepThere
      exact .through fun run hr => at?_received (down _ ▸ hr)
    | through through =>
      cases path with
      | nil => exact absurd (through _ rfl) (by simp)
      | cons j path => exact .through fun run hr => by cases (down _).symm.trans hr
  | through through =>
    have down := at?_pastBranches through i path
    cases stands with
    | unborn idle absent => exact .unborn idle (.inl down)
    | there deepThere context =>
      obtain rfl := at?_settled deepThere
      exact .through (by simp [down])
    | through _ => exact .through (by simp [down])

/-- A run of a stage is made of runs of the stages at any depth below it. -/
theorem Run.descend {deep : Stage} (so : Run stage inherited c past whole)
    (hp : stage.at? inherited path = some (deep, agent)) :
    ∃ c' run, Run deep agent c' (along path past) run ∧ c'.engine = c.engine ∧
      c'.place = c.place.below path ∧ Stands c whole path deep agent c' run (along path past) := by
  induction path generalizing stage inherited c past whole with
  | nil =>
    obtain ⟨rfl, rfl⟩ : stage = deep ∧ inherited = agent := by simpa [Stage.at?] using hp
    exact ⟨c, whole, so, rfl, by simp, .there (by simp [at?]) (by cases whole <;> rfl)⟩
  | cons i path ih =>
    cases hb : stage.parallel[i]? with
    | none => simp [Stage.at?, hb] at hp
    | some branch =>
      simp only [Stage.at?, hb] at hp
      obtain ⟨failure, run, inner, holds⟩ := so.branch hb
      obtain ⟨c', deepRun, deepSo, engine, place, stands⟩ := ih inner hp
      exact ⟨c', deepRun, deepSo, engine, by simpa [Context.inside] using place,
        holds.stands so.shape deepSo stands⟩

/-- What is noted at a stage is noted by its own run. -/
theorem Run.recordsAt_along (so : Run stage inherited c past whole) (path : List Nat) :
    recordsAt (c.place.below path) (records past) =
      recordsAt (c.place.below path) (records (along path past)) := by
  induction path generalizing stage inherited c past whole with
  | nil => rfl
  | cons i path ih =>
    rw [so.recordsAt_within, along]
    cases hb : stage.parallel[i]? with
    | none => simp [so.within_missing hb]
    | some branch =>
      obtain ⟨failure, run, inner, -⟩ := so.branch hb
      simpa [Context.inside] using ih inner

theorem Run.along_missing (so : Run stage inherited c past whole)
    (missing : stage.at? inherited path = none) : along path past = [] := by
  induction path generalizing stage inherited c past whole with
  | nil => cases missing
  | cons i path ih =>
    cases hb : stage.parallel[i]? with
    | none => simp [along, so.within_missing hb]
    | some branch =>
      obtain ⟨failure, run, inner, -⟩ := so.branch hb
      exact ih inner (by simpa [Stage.at?, hb] using missing)

end StageRun
end PipelineRunner
