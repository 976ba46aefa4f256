import PipelineRunner.Proofs.ContainerScope
import PipelineRunner.Proofs.Endings
import PipelineRunner.Proofs.SequentialRuns

/-! Containers behind a breakdown. The books are kept by one balance: a container that has come up
has been told to stop, or somebody holds it who will tell it to. A turn keeps the balance, and a
breakdown hands what was held over to the background, where all stops are carried through; only
those that were under way already are dropped with whoever waited for them. -/

namespace PipelineRunner

/-! ### Tallies -/

/-- The container whose stop has come to its end by an event. -/
def Event.stoppedId? : Event → Option String
  | .stopped id => some id
  | _ => none

/-- How many of some events tell something of this container. -/
def mentions (kind : Event → Option String) (id : String) (events : List Event) : Nat :=
  (events.filterMap kind).count id

@[simp] theorem mentions_nil (kind : Event → Option String) (id : String) : mentions kind id [] = 0 := rfl

@[simp] theorem mentions_cons (kind : Event → Option String) (id : String) (event : Event)
    (events : List Event) :
    mentions kind id (event :: events) =
      (if kind event = some id then 1 else 0) + mentions kind id events := by
  unfold mentions
  cases tells : kind event with
  | none => simp [tells]
  | some other => simp [tells, List.count_cons, Nat.add_comm]

@[simp] theorem mentions_append (kind : Event → Option String) (id : String) (xs ys : List Event) :
    mentions kind id (xs ++ ys) = mentions kind id xs + mentions kind id ys := by
  simp [mentions, List.filterMap_append]

theorem mentions_eq_zero {kind : Event → Option String} {id : String} {events : List Event}
    (silent : ∀ event ∈ events, kind event = none) : mentions kind id events = 0 := by
  have nothing : events.filterMap kind = [] := List.filterMap_eq_nil_iff.mpr silent
  rw [mentions, nothing, List.count_nil]

/-- Whether an event is of no container that comes up or is told to stop. -/
def Event.isBystander : Event → Bool
  | .started .. | .stop _ | .stopped _ => false
  | _ => true

def Bystanding (events : List Event) : Prop := ∀ event ∈ events, event.isBystander = true

theorem Bystanding.mentions {events : List Event} (bystanding : Bystanding events) (id : String) :
    mentions Event.startedId? id events = 0 ∧ mentions Event.stopId? id events = 0 ∧
      mentions Event.stoppedId? id events = 0 := by
  refine ⟨mentions_eq_zero ?_, mentions_eq_zero ?_, mentions_eq_zero ?_⟩ <;>
    intro event mem <;> have := bystanding event mem <;> cases event <;> first | rfl | cases this

theorem Bystanding.concat {events : List Event} {event : Event} (bystanding : Bystanding events)
    (last : event.isBystander = true) : Bystanding (events ++ [event]) :=
  List.forall_mem_append.mpr ⟨bystanding, by simpa using last⟩

/-- Asides may be left out where they tell nothing. -/
theorem mentions_marks {kind : Event → Option String} (silent : ∀ event, event.isAside = true →
    kind event = none) (id : String) (news : List Record) :
    mentions kind id (news.map (·.event)) = mentions kind id (marks news) := by
  induction news with
  | nil => rfl
  | cons r news ih =>
    cases aside : r.event.isAside with
    | true => simpa [marks, aside, silent _ aside] using ih
    | false => simpa [marks, aside] using ih

namespace World

/-- How often something is told of a container in the history. -/
def tally (w : World) (kind : Event → Option String) (id : String) : Nat :=
  mentions kind id (w.history.map (·.event))

/-- How often a container of this name has come up. -/
def starts (w : World) (id : String) : Nat := w.tally Event.startedId? id

/-- How often it has been told to stop. -/
def stops (w : World) (id : String) : Nat := w.tally Event.stopId? id

/-- How often such a stop has come to its end. -/
def ends (w : World) (id : String) : Nat := w.tally Event.stoppedId? id

variable {w w' : World} {place : Place} {events : List Event} {id : String}
  {kind : Event → Option String}

theorem tally_of_news {news : List Record} (noted : w'.history = news.reverse ++ w.history)
    (kind : Event → Option String) (id : String) :
    w'.tally kind id = w.tally kind id + mentions kind id (news.map (·.event)) := by
  have reversed : mentions kind id (news.reverse.map (·.event)) = mentions kind id (news.map (·.event)) := by
    simp [mentions, List.filterMap_reverse]
  rw [tally, noted, List.map_append, mentions_append, reversed, Nat.add_comm, tally]

theorem tally_of_notes (silent : ∀ event, event.isAside = true → kind event = none)
    (h : w.Notes place events w') : w'.tally kind id = w.tally kind id + mentions kind id events := by
  obtain ⟨news, noted, -, rfl⟩ := h
  rw [tally_of_news noted kind id, mentions_marks silent]

theorem starts_of_notes (h : w.Notes place events w') (id : String) :
    w'.starts id = w.starts id + mentions Event.startedId? id events :=
  tally_of_notes (fun event aside => by cases event <;> first | rfl | cases aside) h

theorem stops_of_notes (h : w.Notes place events w') (id : String) :
    w'.stops id = w.stops id + mentions Event.stopId? id events :=
  tally_of_notes (fun event aside => by cases event <;> first | rfl | cases aside) h

theorem ends_of_notes (h : w.Notes place events w') (id : String) :
    w'.ends id = w.ends id + mentions Event.stoppedId? id events :=
  tally_of_notes (fun event aside => by cases event <;> first | rfl | cases aside) h

end World

/-- The books on a container: what has come up has been told to stop or is held so many times, and
so many stops are under way. -/
structure Balance (id : String) (w : World) (held underWay : Nat) : Prop where
  stops : w.stops id + held = w.starts id
  ends : w.ends id + underWay = w.stops id

/-- The books stay in order if what is noted is what changes hands. -/
theorem Balance.notes {id : String} {w w' : World} {place : Place} {events : List Event}
    {held held' underWay underWay' : Nat} (balance : Balance id w held underWay)
    (noted : w.Notes place events w')
    (hands : mentions Event.stopId? id events + held' = held + mentions Event.startedId? id events)
    (waits : mentions Event.stoppedId? id events + underWay' = underWay + mentions Event.stopId? id events) :
    Balance id w' held' underWay' := by
  obtain ⟨stops, ends⟩ := balance
  have := World.starts_of_notes noted id
  have := World.stops_of_notes noted id
  have := World.ends_of_notes noted id
  constructor <;> omega

/-- Bystanders do not touch the books. -/
theorem Balance.bystanding {id : String} {w w' : World} {held underWay : Nat} {news : List Record}
    (balance : Balance id w held underWay) (noted : w'.history = news.reverse ++ w.history)
    (bystanding : Bystanding (news.map (·.event))) : Balance id w' held underWay := by
  obtain ⟨stops, ends⟩ := balance
  obtain ⟨no_start, no_stop, no_end⟩ := bystanding.mentions id
  have starts_same := World.tally_of_news noted Event.startedId? id
  have stops_same := World.tally_of_news noted Event.stopId? id
  have ends_same := World.tally_of_news noted Event.stoppedId? id
  rw [no_start] at starts_same
  rw [no_stop] at stops_same
  rw [no_end] at ends_same
  unfold World.stops World.starts at stops
  unfold World.ends World.stops at ends
  constructor <;> simp only [World.starts, World.stops, World.ends] <;> omega

theorem Balance.whole {id workflow : String} {w w' : World} {held underWay : Nat}
    (balance : Balance id w held underWay) (noted : w.NotesWhole workflow w') :
    Balance id w' held underWay := by
  obtain ⟨news, noted, whole⟩ := noted
  refine balance.bystanding noted fun event mem => ?_
  obtain ⟨r, listed, rfl⟩ := List.mem_map.mp mem
  rcases (whole r listed).2 with aside | ⟨-, state, entered⟩
  · cases event : r.event <;> simp_all [Event.isAside, Event.isBystander]
  · rw [entered]
    rfl

/-- Nothing of containers is noted from `w` to `w'`. -/
def World.StandsBy (w w' : World) : Prop :=
  ∃ place events, w.Notes place events w' ∧ Bystanding events

theorem World.StandsBy.of_notes {w w' : World} {place : Place} {events : List Event}
    (noted : w.Notes place events w') (bystanding : Bystanding events) : w.StandsBy w' :=
  ⟨place, events, noted, bystanding⟩

theorem Balance.standsBy {id : String} {w w' : World} {held underWay : Nat}
    (balance : Balance id w held underWay) (aside : w.StandsBy w') :
    Balance id w' held underWay := by
  obtain ⟨place, events, noted, bystanding⟩ := aside
  obtain ⟨up, down, ended⟩ := bystanding.mentions id
  exact balance.notes noted (by omega) (by omega)

/-- The stops of a runtime do not break down, whether they fail or not. -/
def ContainerRuntime.CarriesThrough (runtime : ContainerRuntime) : Prop :=
  ∀ id, (runtime.stop id).Ends fun _ _ => True

/-- What some have together, one of them has or the others have. -/
theorem count_flatMap {α : Type} {l : List α} {i : Nat} {a : α} (there : l[i]? = some a)
    (f : α → List String) (id : String) :
    (l.flatMap f).count id = (f a).count id + ((l.eraseIdx i).flatMap f).count id := by
  induction l generalizing i with
  | nil => cases there
  | cons first rest ih =>
    cases i with
    | zero =>
      obtain rfl := Option.some.inj there
      simp
    | succ i =>
      have := ih there
      simp only [List.eraseIdx_cons_succ, List.flatMap_cons, List.count_append]
      omega

/-! ### Steps -/

namespace Trial

variable {c : Context} {t t' : Trial} {w w' : World} {events : List Event} {attempt : Nat}
  {reason : String} {names : List String}

theorem Asks.bystanding (asks : t.Asks c attempt events) : Bystanding events := by
  cases asks <;> simp [Bystanding, Event.isBystander]

theorem Goes.bystanding (goes : t.Goes c events t') : Bystanding events := by
  cases goes with
  | waits asks deadline call => exact asks.bystanding
  | pauses asks more cause timer => exact asks.bystanding.concat rfl
  | expires | resumes =>
    simp [Bystanding, Event.isBystander]

theorem Ends.bystanding {result : StepResult} (ends : t.Ends c events result) :
    Bystanding events := by
  cases ends with
  | succeeds asks | fails asks => exact asks.bystanding.concat rfl
  | _ => simp [Bystanding, Event.isBystander]

theorem retry_crashed {e : StepError} : t.retry c attempt e w ≠ .crashed w' reason names := by
  unfold retry
  split <;> simp

theorem follow_crashed {deadline : Option Timer}
    {progress : World × Progress (Except Cause (Option String))}
    (h : t.follow c attempt deadline progress = .crashed w' reason names) :
    names = [] ∧ w' = progress.1 := by
  obtain ⟨w, progress⟩ := progress
  cases progress with
  | crashed reason =>
    cases h
    exact ⟨rfl, rfl⟩
  | waits call => cases deadline <;> cases h
  | finished answer =>
    cases answer with
    | ok output => cases h
    | error cause => exact absurd h retry_crashed

/-- A step that breaks down does so in its call, and it holds no container itself. -/
theorem move_crashed (h : t.move c w = .crashed w' reason names) :
    names = [] ∧ ∃ attempt events, w.Notes c.place events w' ∧ t.Asks c attempt events := by
  unfold move at h
  split at h
  next made ready =>
    split at h
    · cases h
    next free =>
      unfold begin at h
      dsimp only at h
      split at h
      · exact absurd h retry_crashed
      · obtain ⟨rfl, rfl⟩ := follow_crashed h
        exact ⟨rfl, _, _, World.notes_begun rfl _, .now ready (by simpa using free)⟩
  next attempt deadline call calling =>
    split at h
    · obtain ⟨rfl, rfl⟩ := follow_crashed h
      exact ⟨rfl, _, _, World.notes_perform _ _, .before calling⟩
    split at h
    · cases h
    split at h
    · exact absurd h retry_crashed
    · cases h
  · split at h
    · cases h
    split at h <;> cases h

end Trial

namespace OwnSteps

/-- The container whose stop is under way. -/
def releasing : OwnSteps → List String
  | stopping id _ _ => [id]
  | _ => []

variable {c : Context} {stage : Stage} {agent : Agent} {own own' : OwnSteps} {w w' : World}
  {events : List Event} {result : StepsResult} {reason : String} {names : List String}

/-- What a turn notes is what changes hands by it. -/
theorem Goes.balance (goes : own.Goes c stage agent events own') (id : String) :
    mentions Event.stopId? id events + own'.held.count id =
        own.held.count id + mentions Event.startedId? id events ∧
      mentions Event.stoppedId? id events + own'.releasing.count id =
        own.releasing.count id + mentions Event.stopId? id events := by
  cases goes with
  | pulling fetches wait | pulled fetches =>
    cases fetches <;> simp [held, releasing, Event.startedId?, Event.stopId?, Event.stoppedId?]
  | starting starts wait =>
    cases starts <;> simp [held, releasing, Event.startedId?, Event.stopId?, Event.stoppedId?]
  | started starts id' =>
    cases starts <;>
      simp [held, releasing, Event.startedId?, Event.stopId?, Event.stoppedId?, List.count_cons]
  | tries goes =>
    obtain ⟨up, down, ended⟩ := goes.bystanding.mentions id
    simp [held, releasing, up, down, ended]
  | succeeds ends | fails ends =>
    obtain ⟨up, down, ended⟩ := ends.bystanding.mentions id
    simp [held, releasing, up, down, ended]
  | stopping stops wait =>
    cases stops <;>
      simp [held, releasing, Event.startedId?, Event.stopId?, Event.stoppedId?, List.count_cons]
  | _ => simp [held, releasing]

theorem Ends.balance (ends : own.Ends c agent events result) (id : String) :
    mentions Event.stopId? id events = own.held.count id + mentions Event.startedId? id events ∧
      mentions Event.stoppedId? id events =
        own.releasing.count id + mentions Event.stopId? id events := by
  cases ends with
  | unpulled fetches cause =>
    cases fetches <;> simp [held, releasing, Event.startedId?, Event.stopId?, Event.stoppedId?]
  | unstarted starts cause =>
    cases starts <;> simp [held, releasing, Event.startedId?, Event.stopId?, Event.stoppedId?]
  | stopped stops =>
    cases stops <;>
      simp [held, releasing, Event.startedId?, Event.stopId?, Event.stoppedId?, List.count_cons]
  | _ => simp [held, releasing]

theorem followPull_crashed {image : String} {progress : World × Progress (Except Cause Unit)}
    (h : followPull c image progress = .crashed w' reason names) :
    names = [] ∧ w' = progress.1 := by
  obtain ⟨w, progress⟩ := progress
  cases progress with
  | crashed reason =>
    cases h
    exact ⟨rfl, rfl⟩
  | waits wait => cases h
  | finished answer => cases answer <;> cases h

theorem followStart_crashed {image : String} {progress : World × Progress (Except Cause String)}
    (h : followStart c stage image progress = .crashed w' reason names) :
    names = [] ∧ w' = progress.1 := by
  obtain ⟨w, progress⟩ := progress
  cases progress with
  | crashed reason =>
    cases h
    exact ⟨rfl, rfl⟩
  | waits wait => cases h
  | finished answer => cases answer <;> cases h

theorem followStop_crashed {id : String} {progress : World × Progress (Except Cause Unit)}
    (h : followStop c id result progress = .crashed w' reason names) :
    names = [] ∧ w' = progress.1 := by
  obtain ⟨w, progress⟩ := progress
  cases progress with
  | crashed reason =>
    cases h
    exact ⟨rfl, rfl⟩
  | waits wait => cases h
  | finished answer => cases h

theorem followStop_sure {id : String} {work : Work (Except Cause Unit)}
    (sure : work.Ends fun _ _ => True) :
    followStop c id result (World.perform c.place work w) ≠ .crashed w' reason names := by
  have reliable := World.perform_reliable c.place sure w
  cases performed : World.perform c.place work w with
  | mk w₁ progress =>
    rw [performed] at reliable
    cases progress with
    | crashed reason => exact reliable.elim
    | waits wait => nofun
    | finished answer => nofun

/-- Where steps break down, it is not for a stop that is to be told, and they hand over what they
held. -/
theorem move_crashed (sure : c.engine.runtime.CarriesThrough)
    (h : own.move c stage agent w = .crashed w' reason names) :
    w.StandsBy w' ∧ ∀ id, names.count id = own.held.count id := by
  cases own with
  | entering =>
    simp only [move] at h
    split at h
    · cases h
    split at h
    · cases h
    obtain ⟨rfl, rfl⟩ := followPull_crashed h
    exact ⟨.of_notes (World.notes_begun rfl _) (by simp [Bystanding, Event.isBystander]),
      fun _ => rfl⟩
  | pulling image wait =>
    simp only [move] at h
    split at h
    · obtain ⟨rfl, rfl⟩ := followPull_crashed h
      exact ⟨.of_notes (World.notes_perform _ _) (by simp [Bystanding]), fun _ => rfl⟩
    · cases h
  | pulled image =>
    obtain ⟨rfl, rfl⟩ := followStart_crashed h
    exact ⟨.of_notes (World.notes_begun rfl _) (by simp [Bystanding, Event.isBystander]),
      fun _ => rfl⟩
  | starting image wait =>
    simp only [move] at h
    split at h
    · obtain ⟨rfl, rfl⟩ := followStart_crashed h
      exact ⟨.of_notes (World.notes_perform _ _) (by simp [Bystanding]), fun _ => rfl⟩
    · cases h
  | between container todo outputs =>
    cases todo with
    | nil => cases h
    | cons step todo =>
      simp only [move, beginStep] at h
      split at h
      · cases h
      · split at h <;> cases h
  | trying container trial todo outputs =>
    simp only [move] at h
    cases turn : trial.move c w with
    | crashed w₁ why inner =>
      simp only [turn, followTrial] at h
      cases h
      obtain ⟨rfl, attempt, events, noted, asks⟩ := Trial.move_crashed turn
      exact ⟨.of_notes noted asks.bystanding, fun _ => rfl⟩
    | ended w₁ answer => cases answer <;> simp [turn, followTrial] at h
    | _ => simp [turn, followTrial] at h
  | leaving container result =>
    cases container with
    | none => cases h
    | some id => exact absurd h (followStop_sure (sure id))
  | stopping id wait result =>
    simp only [move] at h
    split at h
    · obtain ⟨rfl, rfl⟩ := followStop_crashed h
      exact ⟨.of_notes (World.notes_perform _ _) (by simp [Bystanding]), fun _ => rfl⟩
    · cases h

end OwnSteps

/-! ### Stages -/

namespace StageRun

mutual

/-- The containers whose stops are under way. -/
def releasing : StageRun → List String
  | joining _ _ runs _ => releasingAmong runs
  | working _ _ _ own => own.releasing
  | _ => []

def releasingAmong : List StageRun → List String
  | [] => []
  | run :: rest => run.releasing ++ releasingAmong rest

end

variable {c : Context} {stage : Stage} {agent inherited : Agent} {run run' : StageRun}
  {runs : List StageRun} {failure : Option StepError} {w w' : World} {path : List Nat} {id : String}
  {reason : String} {names : List String} {i m n : Nat}

theorem heldByAll_count (runs : List StageRun) (id : String) :
    (heldByAll runs).count id = (runs.flatMap held).count id := by
  induction runs with
  | nil => rfl
  | cons run rest ih => simp only [heldByAll, List.flatMap_cons, List.count_append, ih, Nat.add_comm]

theorem releasingAmong_eq (runs : List StageRun) : releasingAmong runs = runs.flatMap releasing := by
  induction runs with
  | nil => rfl
  | cons run rest ih => rw [releasingAmong, ih, List.flatMap_cons]

/-- The balance of a stage beside others that hold so many and release so many. -/
abbrev Balanced (id : String) (w : World) (m n : Nat) (run : StageRun) : Prop :=
  Balance id w (run.held.count id + m) (run.releasing.count id + n)

/-- A branch is balanced beside the others in its join. -/
theorem balanced_joining (there : runs[i]? = some run) :
    Balanced id w m n (joining stage agent runs failure) ↔
      Balanced id w (((runs.eraseIdx i).flatMap held).count id + m)
        (((runs.eraseIdx i).flatMap releasing).count id + n) run := by
  simp only [Balanced, held, releasing, heldByAll_count, releasingAmong_eq, count_flatMap there,
    Nat.add_assoc]

theorem balanced_set (there : runs[i]? = some run) :
    Balanced id w m n (joining stage agent (runs.set i run') failure) ↔
      Balanced id w (((runs.eraseIdx i).flatMap held).count id + m)
        (((runs.eraseIdx i).flatMap releasing).count id + n) run' := by
  have now : (runs.set i run')[i]? = some run' := set_there there run'
  rw [balanced_joining now, List.eraseIdx_set_eq]

/-- A stage that holds nothing and releases nothing. -/
def Idle (run : StageRun) : Prop := run.held = [] ∧ run.releasing = []

theorem idle_ownSteps (stage : Stage) (agent : Agent) (branches : Option StageResults) :
    (ownSteps stage agent branches).Idle :=
  ownSteps_cases branches (fun _ => ⟨rfl, rfl⟩) ⟨rfl, rfl⟩

theorem idle_joining (idle : ∀ run ∈ runs, run.Idle) : (joining stage agent runs failure).Idle := by
  induction runs with
  | nil => exact ⟨rfl, rfl⟩
  | cons run rest ih =>
    obtain ⟨first, others⟩ := List.forall_mem_cons.mp idle
    obtain ⟨held_rest, releasing_rest⟩ := ih others
    simp only [held, releasing] at held_rest releasing_rest
    simp [Idle, held, releasing, heldByAll, releasingAmong, held_rest, releasing_rest, first.1,
      first.2]

theorem Idle.balanced (idle : run.Idle) (idle' : run'.Idle) (balance : Balanced id w m n run) :
    Balanced id w m n run' := by
  rw [Balanced, idle.1, idle.2] at balance
  rw [Balanced, idle'.1, idle'.2]
  exact balance

theorem balanced_of_move (moved : run.move c w path = .moved w' run')
    (balance : Balanced id w m n run) : Balanced id w' m n run' := by
  induction path generalizing c run run' m n with
  | nil =>
    cases turned_of_move moved with
    | enters =>
      refine Idle.balanced ⟨rfl, rfl⟩ ?_ balance
      exact enter_cases (fun _ => idle_ownSteps _ _ _)
        (idle_joining (by simp [Idle, held, releasing]))
    | @leaves stage agent runs failure outputs all =>
      have received_ : ∀ run ∈ runs, run.Idle := by
        rw [outputs?_eq_some.mp all]
        simp [Idle, held, releasing]
      refine Idle.balanced (idle_joining received_) ?_ balance
      exact leaveJoin_cases _ _ (fun _ _ _ => ⟨rfl, rfl⟩) fun _ _ => idle_ownSteps _ _ _
    | works noted goes =>
      obtain ⟨hands, waits⟩ := goes.balance id
      exact balance.notes noted (by simp only [held]; omega) (by simp only [releasing]; omega)
    | settles noted ends =>
      obtain ⟨hands, waits⟩ := ends.balance id
      refine balance.notes noted ?_ ?_
      · simp only [held, List.count_nil]
        omega
      · simp only [releasing, List.count_nil]
        omega
  | cons i path ih =>
    cases turned_of_move moved with
    | @receives _ _ _ _ _ _ output _ there =>
      rw [balanced_joining there] at balance
      rw [balanced_set there]
      have heard : Balanced id w _ _ (received output) :=
        Idle.balanced ⟨rfl, rfl⟩ ⟨rfl, rfl⟩ balance
      exact heard.notes (World.notes_note rfl) (by simp [Event.stopId?, Event.startedId?])
        (by simp [Event.stopId?, Event.stoppedId?])
    | inside there unsettled inner =>
      rw [balanced_joining there] at balance
      rw [balanced_set there]
      exact ih inner balance

/-- Where a turn breaks down, all that is held in any branch is handed over. -/
theorem move_crashed (sure : c.engine.runtime.CarriesThrough)
    (broke : run.move c w path = .crashed w' reason names) :
    w.StandsBy w' ∧ ∀ id, names.count id = run.held.count id := by
  induction path generalizing c run names with
  | nil =>
    cases run with
    | working stage agent branches own =>
      simp only [move, moveHere] at broke
      cases turn : own.move c stage agent w with
      | crashed w₁ why inner =>
        simp only [turn, followSteps] at broke
        cases broke
        exact OwnSteps.move_crashed sure turn
      | _ => simp [turn, followSteps] at broke
    | joining stage agent runs failure =>
      simp only [move, moveHere] at broke
      split at broke <;> cases broke
    | _ => simp [move, moveHere] at broke
  | cons i path ih =>
    cases run with
    | joining stage agent runs failure =>
      rw [move] at broke
      split at broke
      next => cases broke
      next => cases broke
      next run _ there =>
        cases turn : run.move (Context.inside c stage failure i) w path with
        | crashed w₁ why inner =>
          simp only [turn, followBranch] at broke
          cases broke
          obtain ⟨aside, hands⟩ := @ih (Context.inside c stage failure i) _ _ sure turn
          refine ⟨aside, fun id => ?_⟩
          have := hands id
          have := count_flatMap there held id
          simp only [held, List.count_append, heldByAll_count]
          omega
        | _ => simp [turn, followBranch] at broke
    | _ => simp [move] at broke

end StageRun

namespace Execution

/-! ### Executions -/

/-- The containers that are held anywhere in an execution. -/
def held (e : Execution) : List String :=
  match e.phase with
  | .inStage _ _ _ run _ _ => run.held
  | _ => []

/-- The containers whose stops are under way. -/
def releasing (e : Execution) : List String :=
  match e.phase with
  | .inStage _ _ _ run _ _ => run.releasing
  | _ => []

variable {engine : Engine} {e e' : Execution} {w w' : World} {path : List Nat} {id : String}
  {reason : String} {names : List String}

/-- The books on a container while nothing has broken down. -/
abbrev Balanced (id : String) (w : World) (e : Execution) : Prop :=
  Balance id w (e.held.count id) (e.releasing.count id)

theorem balanced_of_move (moved : e.move engine w path = .moved w' e')
    (balance : e.Balanced id w) : e'.Balanced id w' := by
  cases turned_of_move moved with
  | refused fresh missing =>
    simpa [Balanced, held, releasing, fresh] using balance
  | begins fresh known noted =>
    have before : Balance id w 0 0 := by simpa [Balanced, held, releasing, fresh] using balance
    simpa [Balanced, held, releasing] using before.whole noted
  | finishes phase noted =>
    have before : Balance id w 0 0 := by simpa [Balanced, held, releasing, phase] using balance
    simpa [Balanced, held, releasing] using before.whole noted
  | starts phase noted =>
    have before : Balance id w 0 0 := by simpa [Balanced, held, releasing, phase] using balance
    simpa [Balanced, held, releasing, StageRun.held, StageRun.releasing] using before.whole noted
  | succeeds phase =>
    simpa [Balanced, held, releasing, phase, StageRun.held, StageRun.releasing] using balance
  | fails phase noted =>
    have before : Balance id w 0 0 := by
      simpa [Balanced, held, releasing, phase, StageRun.held, StageRun.releasing] using balance
    simpa [Balanced, held, releasing] using before.whole noted
  | @inside _ _ _ run _ _ _ _ phase unsettled inner =>
    have before : StageRun.Balanced id w 0 0 run := by
      simpa [StageRun.Balanced, Balanced, held, releasing, phase] using balance
    simpa [StageRun.Balanced, Balanced, held, releasing] using StageRun.balanced_of_move inner before

theorem balanced_of_step (moved : e.step engine w = .moved w' e') (balance : e.Balanced id w) :
    e'.Balanced id w' := by
  rcases step_moved moved with ⟨after, rota, turn, rfl⟩ | ⟨rfl, rota, rfl⟩
  · have kept : after.Balanced id w' := balanced_of_move turn balance
    exact kept
  · exact balance

/-- Where an execution breaks down, all that is held is handed over. -/
theorem move_crashed (sure : engine.runtime.CarriesThrough)
    (broke : e.move engine w path = .crashed w' reason names) :
    w.StandsBy w' ∧ ∀ id, names.count id = e.held.count id := by
  unfold move at broke
  split at broke
  next =>
    unfold begin at broke
    split at broke <;> cases broke
  next => cases broke
  next => cases broke
  next failure _ _ phase => cases failure <;> cases broke
  next workflow index name run todo results _ phase =>
    cases turn : run.move (outermost engine workflow index) w path with
    | crashed w₁ why inner =>
      simp only [turn, followStage] at broke
      cases broke
      simpa [held, phase] using StageRun.move_crashed sure turn
    | _ => simp [turn, followStage] at broke
  next => cases broke
  next => cases broke

end Execution

/-! ### Stops in the background -/

namespace Cleanup

/-- The container that is still to be told to stop. -/
def held (c : Cleanup) : List String :=
  match c.phase with
  | .fresh => [c.container]
  | _ => []

/-- The container whose stop is under way. -/
def releasing (c : Cleanup) : List String :=
  match c.phase with
  | .stopping _ => [c.container]
  | _ => []

/-- What is left of the stop does not break down. -/
def Sure (c : Cleanup) : Prop :=
  ∀ wait, c.phase = .stopping wait → wait.rest.Ends fun _ _ => True

variable {runtime : ContainerRuntime} {c c' : Cleanup} {cleanups after : List Cleanup}
  {w w' : World} {id : String} {m n : Nat}

/-- A stop that is sure goes on or comes to its end. -/
theorem balanced_of_follow {work : Work (Except Cause Unit)} (sure : work.Ends fun _ _ => True)
    (h : c.follow (World.perform {} work w) = (w', c'))
    (balance : Balance id w m ([c.container].count id + n)) :
    c'.Sure ∧ Balance id w' (c'.held.count id + m) (c'.releasing.count id + n) := by
  have noted : w.Notes {} [] (World.perform {} work w).1 := World.notes_perform work w
  have reliable := World.perform_reliable {} sure w
  cases performed : World.perform {} work w with
  | mk w₁ progress =>
    rw [performed] at h noted reliable
    have balance : Balance id w₁ m ([c.container].count id + n) :=
      balance.notes noted (by simp) (by simp)
    cases progress with
    | crashed reason => exact reliable.elim
    | waits wait =>
      cases h
      obtain ⟨t, -, rest⟩ := reliable
      refine ⟨?_, by simpa [held, releasing] using balance⟩
      rintro _ ⟨⟩
      exact rest.mono fun _ _ _ => trivial
    | finished answer =>
      cases h
      refine ⟨by rintro _ ⟨⟩, balance.notes (World.notes_note rfl) ?_ ?_⟩
      · simp [held, Event.stopId?, Event.startedId?]
      · simp [releasing, Event.stopId?, Event.stoppedId?, List.count_cons]

/-- A turn in the background keeps the balance. -/
theorem balanced_of_step (sure : (runtime.stop c.container).Ends fun _ _ => True)
    (so_far : c.Sure) (stepped : c.step runtime w = some (w', c'))
    (balance : Balance id w (c.held.count id + m) (c.releasing.count id + n)) :
    c'.Sure ∧ Balance id w' (c'.held.count id + m) (c'.releasing.count id + n) := by
  rcases follow_of_step stepped with ⟨fresh, begun⟩ | ⟨wait, stopping, went_on⟩
  · refine balanced_of_follow sure begun (balance.notes (World.notes_note rfl) ?_ ?_)
    · simp [held, fresh, Event.stopId?, Event.startedId?, List.count_cons]
    · simp [releasing, fresh, Event.stopId?, Event.stoppedId?, List.count_cons]
      omega
  · refine balanced_of_follow (so_far wait stopping) went_on ?_
    simpa [held, releasing, stopping] using balance

end Cleanup

namespace SoloExecution

/-! ### An execution by itself -/

/-- `s'` comes from `s` by steps, as time passes and plugins are taken away. -/
inductive Goes (s : SoloExecution) : SoloExecution → Prop where
  | here : Goes s s
  | step {s' s'' : SoloExecution} (so : Goes s s') (stepped : s'.step = some s'') : Goes s s''
  | later {s' : SoloExecution} (so : Goes s s') (t : Nat) : Goes s (clockwork.moveTo t s')
  | unregister {s' : SoloExecution} (so : Goes s s') (name : String) : Goes s (s'.unregister name)

/-- A step in which an execution breaks down. -/
def BreaksDown (s s' : SoloExecution) : Prop :=
  s.step = some s' ∧
    ∃ w reason names, s.execution.step s.engine s.world = .crashed w reason names

/-- An execution with which nothing happens any more. -/
def AtRest (s : SoloExecution) : Prop := s.step = none ∧ clockwork.nextDue s = none

/-- The books while nothing has broken down. -/
structure Intact (engine : Engine) (s : SoloExecution) : Prop where
  engine : s.engine = engine
  alone : s.cleanups = []
  balance : ∀ id, s.execution.Balanced id s.world

/-- The books behind a breakdown, in which so many stops have been dropped. -/
structure BrokenDown (engine : Engine) (lost : String → Nat) (s : SoloExecution) : Prop where
  engine : s.engine = engine
  broken : ∃ reason, s.execution.phase = .crashed reason
  sure : ∀ c ∈ s.cleanups, c.Sure
  balance : ∀ id, Balance id s.world ((s.cleanups.flatMap Cleanup.held).count id)
    ((s.cleanups.flatMap Cleanup.releasing).count id + lost id)

variable {engine : Engine} {s s' : SoloExecution} {lost : String → Nat}

/-- An execution that has broken down has no turns any more. -/
theorem step_of_broken {reason : String} (broken : s.execution.phase = .crashed reason)
    (stepped : s.step = some s') :
    (∃ rota, s' = { s with execution := { s.execution with rota } }) ∨
      ∃ w cleanups, Cleanup.stepFirst s.engine.runtime s.world s.cleanups = some (w, cleanups) ∧
        s' = { s with world := w, cleanups } := by
  have turnless (path : List Nat) : s.execution.move s.engine s.world path = .blocked := by
    simp [Execution.move, broken]
  unfold step at stepped
  split at stepped
  next moved =>
    cases stepped
    rcases Execution.step_moved moved with ⟨after, rota, turn, -⟩ | ⟨rfl, rota, rfl⟩
    · cases (turnless _).symm.trans turn
    · exact .inl ⟨rota, rfl⟩
  next broke => cases (turnless _).symm.trans (Execution.step_crashed broke)
  next =>
    obtain ⟨⟨w, cleanups⟩, turn, rfl⟩ := Option.map_eq_some_iff.mp stepped
    exact .inr ⟨w, cleanups, turn, rfl⟩

theorem BrokenDown.step (sure : engine.runtime.CarriesThrough)
    (books : BrokenDown engine lost s) (stepped : s.step = some s') :
    BrokenDown engine lost s' := by
  obtain ⟨rfl, ⟨reason, broken⟩, so_far, balance⟩ := books
  rcases step_of_broken broken stepped with ⟨rota, rfl⟩ | ⟨w, cleanups, turn, rfl⟩
  · exact ⟨rfl, ⟨reason, broken⟩, so_far, balance⟩
  · obtain ⟨i, c, c', there, one, rfl⟩ := Cleanup.step_of_stepFirst turn
    have now : (s.cleanups.set i c')[i]? = some c' := by
      simp [(List.getElem?_eq_some_iff.mp there).1]
    have kept (id : String) :
        c'.Sure ∧ Balance id w
          (c'.held.count id + ((s.cleanups.eraseIdx i).flatMap Cleanup.held).count id)
          (c'.releasing.count id +
            (((s.cleanups.eraseIdx i).flatMap Cleanup.releasing).count id + lost id)) := by
      refine Cleanup.balanced_of_step (sure c.container) (so_far c (List.mem_of_getElem? there))
        one ?_
      have before := balance id
      rwa [count_flatMap there, count_flatMap there, Nat.add_assoc] at before
    refine ⟨rfl, ⟨reason, broken⟩, fun other mem => ?_, fun id => ?_⟩
    · rcases List.mem_or_eq_of_mem_set mem with old | rfl
      · exact so_far other old
      · exact (kept "").1
    · rw [count_flatMap now, count_flatMap now, List.eraseIdx_set_eq, Nat.add_assoc]
      exact (kept id).2

theorem BrokenDown.moveTo (books : BrokenDown engine lost s) (t : Nat) :
    BrokenDown engine lost (clockwork.moveTo t s) := by
  obtain ⟨same, ⟨reason, broken⟩, sure, balance⟩ := books
  obtain ⟨rota, woken⟩ := @Execution.wake_eq s.engine s.execution { s.world with clock := t }
  exact ⟨same, ⟨reason, by simpa [clockwork, woken] using broken⟩, sure,
    fun id => ⟨(balance id).stops, (balance id).ends⟩⟩

theorem balance_unregister {id : String} {held underWay : Nat} (name : String)
    (balance : Balance id s.world held underWay) :
    Balance id (s.unregister name).world held underWay := by
  have retired {w : World} (events : List PluginEvent) (balance : Balance id w held underWay) :
      Balance id (w.noteRetired events) held underWay := by
    induction events with
    | nil => exact balance
    | cons event rest ih =>
      cases event with
      | started => exact ih
      | failed => exact ih
      | stopped time name builtin =>
        have noted : (w.noteRetired rest).Notes {} [.retired name builtin]
            ((w.noteRetired rest).note {} (.retired name builtin)) := World.notes_note rfl
        exact ih.notes noted (by simp [Event.stopId?, Event.startedId?])
          (by simp [Event.stopId?, Event.stoppedId?])
  exact retired _ ⟨balance.stops, balance.ends⟩

/-- Whatever happens behind a breakdown, the books stay in order. -/
theorem BrokenDown.goes (sure : engine.runtime.CarriesThrough)
    (books : BrokenDown engine lost s) (goes : Goes s s') : BrokenDown engine lost s' := by
  induction goes with
  | here => exact books
  | step so stepped ih => exact ih.step sure stepped
  | later so t ih => exact ih.moveTo t
  | unregister so name ih =>
    exact ⟨ih.engine, ih.broken, ih.sure, fun id => balance_unregister name (ih.balance id)⟩

/-- A breakdown hands over what is held, and what is under way is lost by it. -/
theorem Intact.breaksDown (sure : engine.runtime.CarriesThrough) (books : Intact engine s)
    (broke : s.BreaksDown s') :
    BrokenDown engine (fun id => s.execution.releasing.count id) s' := by
  obtain ⟨rfl, alone, balance⟩ := books
  obtain ⟨stepped, w, reason, names, broke⟩ := broke
  simp only [SoloExecution.step, broke, Option.some.injEq] at stepped
  subst stepped
  obtain ⟨aside, hands⟩ := Execution.move_crashed sure (Execution.step_crashed broke)
  refine ⟨rfl, ⟨reason, rfl⟩, ?_, fun id => ?_⟩
  · rw [alone]
    intro c mem wait stopping
    obtain ⟨id, -, rfl⟩ := List.mem_map.mp mem
    cases stopping
  · have held : (names.map fun id => ({ container := id } : Cleanup)).flatMap Cleanup.held =
        names := by
      rw [List.flatMap_map]
      exact List.flatMap_singleton' names
    have releasing :
        (names.map fun id => ({ container := id } : Cleanup)).flatMap Cleanup.releasing = [] := by
      rw [List.flatMap_map]
      exact List.flatMap_eq_nil_iff.mpr fun _ _ => rfl
    simpa [alone, held, releasing, hands id] using (balance id).standsBy aside

theorem Intact.step (sure : engine.runtime.CarriesThrough) (books : Intact engine s)
    (stepped : s.step = some s') : Intact engine s' ∨ ∃ lost, BrokenDown engine lost s' := by
  cases turn : s.execution.step s.engine s.world with
  | crashed w reason names => exact .inr ⟨_, books.breaksDown sure ⟨stepped, w, reason, names, turn⟩⟩
  | moved w e =>
    simp only [SoloExecution.step, turn, Option.some.injEq] at stepped
    subst stepped
    exact .inl ⟨books.engine, books.alone, fun id => Execution.balanced_of_step turn
      (books.balance id)⟩
  | _ =>
    simp only [SoloExecution.step, turn, books.alone] at stepped
    cases stepped

theorem Intact.moveTo (books : Intact engine s) (t : Nat) :
    Intact engine (clockwork.moveTo t s) := by
  obtain ⟨same, alone, balance⟩ := books
  obtain ⟨rota, woken⟩ := @Execution.wake_eq s.engine s.execution { s.world with clock := t }
  refine ⟨same, alone, fun id => ?_⟩
  simp only [clockwork, woken]
  exact ⟨(balance id).stops, (balance id).ends⟩

/-- Whatever happens to an execution whose history begins with it, its books are in order. -/
theorem books_of_goes {world : World} (unused : world.history = []) {pipeline : Pipeline}
    {properties : Properties} {state : StateCell} (sure : engine.runtime.CarriesThrough)
    (goes : Goes ⟨engine, world, { pipeline, properties, state }, []⟩ s) :
    Intact engine s ∨ ∃ lost, BrokenDown engine lost s := by
  induction goes with
  | here =>
    refine .inl ⟨rfl, rfl, fun id => ⟨?_, ?_⟩⟩ <;>
      simp [World.stops, World.starts, World.ends, World.tally, unused, Execution.held,
        Execution.releasing]
  | step so stepped ih =>
    rcases ih with books | ⟨lost, books⟩
    · exact books.step sure stepped
    · exact .inr ⟨lost, books.step sure stepped⟩
  | later so t ih =>
    exact ih.imp (·.moveTo t) fun ⟨lost, books⟩ => ⟨lost, books.moveTo t⟩
  | unregister so name ih =>
    refine ih.imp (fun books => ⟨books.engine, books.alone, fun id => ?_⟩) fun ⟨lost, books⟩ =>
      ⟨lost, books.engine, books.broken, books.sure, fun id => ?_⟩
    · exact balance_unregister name (books.balance id)
    · exact balance_unregister name (books.balance id)

theorem stepFirst_of_rest (still : s.step = none) :
    Cleanup.stepFirst s.engine.runtime s.world s.cleanups = none := by
  unfold step at still
  split at still
  next => cases still
  next => cases still
  next => exact Option.map_eq_none_iff.mp still

/-- At rest no stop in the background is still to be told or under way. -/
theorem AtRest.through (rest : s.AtRest) : ∀ c ∈ s.cleanups, c.held = [] ∧ c.releasing = [] := by
  obtain ⟨still, idle⟩ := rest
  have unawaited : s.timers = [] := List.map_eq_nil_iff.mp (List.min?_eq_none_iff.mp idle)
  intro c mem
  have timers : c.timers = [] :=
    List.flatMap_eq_nil_iff.mp (List.append_eq_nil_iff.mp unawaited).2 c mem
  have blocked := Cleanup.blocked_of_rest (stepFirst_of_rest still) c mem
  unfold Cleanup.step at blocked
  unfold Cleanup.timers at timers
  unfold Cleanup.held Cleanup.releasing
  cases phase : c.phase with
  | fresh => simp [phase] at blocked
  | stopping wait => simp [phase] at timers
  | _ => exact ⟨rfl, rfl⟩

theorem BrokenDown.undue (books : BrokenDown engine lost s) (still : s.step = none) :
    ∀ timer ∈ s.timers, s.world.clock < timer.due := by
  obtain ⟨reason, broken⟩ := books.broken
  intro timer mem
  have awaited : timer ∈ s.cleanups.flatMap Cleanup.timers := by
    simpa [SoloExecution.timers, Execution.timers, broken] using mem
  simpa [World.isDue] using Cleanup.timers_of_rest (stepFirst_of_rest still) timer awaited

/-- Behind a breakdown the background comes to rest. -/
theorem BrokenDown.rests (sure : engine.runtime.CarriesThrough) (books : BrokenDown engine lost s) :
    ∃ n, ∀ fuel, n ≤ fuel →
      ∃ rest, clockwork.runWithin (fun _ => false) none fuel s = rest ∧ Goes s rest ∧
        rest.AtRest := by
  obtain ⟨n, rests⟩ := @Clockwork.runWithin_rests _ _ clockwork
    (fun x => BrokenDown engine lost x ∧ Goes s x) _ left (fun _ => false) (wf_less engine.policy)
    (fun x x' ⟨books, goes⟩ stepped =>
      ⟨⟨books.step sure stepped, goes.step stepped⟩, books.engine ▸ less_of_step stepped⟩)
    (fun x t ⟨books, goes⟩ still _ next =>
      ⟨⟨books.moveTo t, goes.later t⟩, books.engine ▸ less_of_moveTo (books.undue still) next⟩)
    s ⟨books, .here⟩
  refine ⟨n, fun fuel enough => ?_⟩
  obtain ⟨rest, ran, ⟨-, goes⟩, still, idle⟩ := rests fuel enough
  exact ⟨rest, ran, goes, still, idle.resolve_left (by simp)⟩

/-- When an execution breaks down, whatever other branches are doing, every container that has come
up is told to stop exactly once, and the background carries all those stops through that it has
told itself. The only ones that are left hanging are those that branches were waiting for when it
broke down. -/
theorem containers_are_told_to_stop {rest : SoloExecution} {world : World}
    (unused : world.history = []) {pipeline : Pipeline} {properties : Properties}
    {state : StateCell} (sure : engine.runtime.CarriesThrough)
    (reached : Goes ⟨engine, world, { pipeline, properties, state }, []⟩ s)
    (broke : s.BreaksDown s') (goes : Goes s' rest) (still : rest.AtRest) (id : String) :
    rest.world.stops id = rest.world.starts id ∧
      rest.world.ends id + s.execution.releasing.count id = rest.world.stops id := by
  rcases books_of_goes unused sure reached with intact | ⟨lost, books⟩
  · obtain ⟨stops, ends⟩ := ((intact.breaksDown sure broke).goes sure goes).balance id
    have held : rest.cleanups.flatMap Cleanup.held = [] :=
      List.flatMap_eq_nil_iff.mpr fun c mem => (still.through c mem).1
    have releasing : rest.cleanups.flatMap Cleanup.releasing = [] :=
      List.flatMap_eq_nil_iff.mpr fun c mem => (still.through c mem).2
    rw [held, List.count_nil] at stops
    rw [releasing, List.count_nil] at ends
    exact ⟨by omega, by omega⟩
  · obtain ⟨reason, broken⟩ := books.broken
    obtain ⟨-, w, why, names, turn⟩ := broke
    have turnless : s.execution.move s.engine s.world s.execution.rota.place = .blocked := by
      simp [Execution.move, broken]
    cases turnless.symm.trans (Execution.step_crashed turn)

end SoloExecution

/-! ### Three branches, one of which breaks down -/

namespace Lapse

/-- A call lasts as long as it is told; one that is told nothing breaks down. -/
def plugin : Plugin where
  methods := [("last", "last")]
  invoke _ params :=
    match params.get? Step.textKey with
    | some "short" => .sleep 5 fun _ => .done (.ok none)
    | some "long" => .sleep 20 fun _ => .done (.ok none)
    | _ => .sleep 10 fun _ => .crash "broken"

/-- Containers bear the names of their images, and stopping one takes its time. -/
def engine : Engine where
  policy := ⟨1, .ofSeconds 1, .ofSeconds 1, 1, .ofSeconds 1⟩
  runtime :=
    { pull := fun _ => .done (.ok ())
      start := fun image => .done (.ok image)
      exec := fun _ _ => .done (.ok .finished)
      stop := fun _ => .sleep 50 fun _ => .done (.ok ()) }

def pipeline : Pipeline where
  agent := .none
  stages := [
    { name := "build"
      parallel := [
        { name := "early", agent := some (.docker "early"), steps := [.single "last" "short"] },
        { name := "late", agent := some (.docker "late"), steps := [.single "last" "long"] },
        { name := "broken", steps := [.single "last" ""] }] }]

def begun : SoloExecution where
  engine
  world := { registry := (Registry.empty.register "lapse" plugin).1 }
  execution := { pipeline, properties := [(workflowKey, .string "lapse")] }

end Lapse

/-- The branch that waits for its stop when the other breaks down leaves it behind unfinished. -/
example :
    let rest := (Lapse.begun.run []).settleAll.world
    (rest.starts "early:latest", rest.stops "early:latest", rest.ends "early:latest") = (1, 1, 0) ∧
      (rest.starts "late:latest", rest.stops "late:latest", rest.ends "late:latest") = (1, 1, 1) := by
  decide +kernel

end PipelineRunner
