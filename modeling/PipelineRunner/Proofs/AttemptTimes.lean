import PipelineRunner.Proofs.Instants
import PipelineRunner.Proofs.StepAttempts

/-! The time of an attempt. A call gets its deadline when it is made, and keeps it. Where a stage
does not interrupt its branches, nobody stops waiting for a call before the deadline. -/

namespace PipelineRunner

variable {stage : Stage} {events : List Event} {limit : Nat}

/-- How many milliseconds an attempt may take. -/
def RetryPolicy.attemptLimit (policy : RetryPolicy) : Nat :=
  min policy.attemptTimeout.millisecondsUp longestWait

/-- When the last call was made, as a further record tells. -/
def Record.lastCall (before : Option Nat) (r : Record) : Option Nat :=
  match r.event with
  | .called .. => some r.time
  | _ => before

/-- When the last call of some records was made. -/
def lastCall? (records : List Record) : Option Nat := records.foldl Record.lastCall none

/-- Nobody has stopped waiting for a call before so many milliseconds were over. -/
def Patient (limit : Nat) (records : List Record) : Prop :=
  ∀ before r after, records = before ++ r :: after → r.event = .abandoned →
    ∃ called, lastCall? before = some called ∧ called + limit ≤ r.time

section Times

variable {records news : List Record} {c : Context} {w w' : World}

theorem lastCall?_append (records more : List Record) :
    lastCall? (records ++ more) = more.foldl Record.lastCall (lastCall? records) :=
  List.foldl_append

theorem Patient.append (h : Patient limit records)
    (now : ∀ before r after, news = before ++ r :: after → r.event = .abandoned →
      ∃ called, lastCall? (records ++ before) = some called ∧ called + limit ≤ r.time) :
    Patient limit (records ++ news) := by
  intro before r after split abandoned
  rcases split_append split with ⟨rest, earlier, -⟩ | ⟨between, rfl, later⟩
  · exact h before r rest earlier abandoned
  · exact now between r after later abandoned

theorem StageRun.Receipts.patient (h : Receipts (records.map (·.event))) :
    Patient limit records := by
  intro before r after split abandoned
  obtain ⟨i, failed, received⟩ := h r.event (List.mem_map_of_mem (by simp [split]))
  cases abandoned.symm.trans received

/-- The world that a turn leaves, unless it breaks down. -/
def Turn.world? {σ α : Type} : Turn σ α → Option World
  | .moved w _ => some w
  | .ended w _ => some w
  | _ => none

namespace Trial

variable {t t' : Trial} {attempt : Nat} {deadline : Timer}
  {call : Waiting (Except Cause (Option String))} {e : StepError}

theorem retry_history (h : (t.retry c attempt e w).world? = some w') :
    w'.history = w.history := by
  unfold retry at h
  split at h <;> cases h <;> rfl

/-- A call that is made or goes on notes nothing but its answer. -/
theorem follow_notes {w₀ : World} {deadline : Option Timer}
    {progress : World × Progress (Except Cause (Option String))}
    (noted : w₀.Notes c.place events progress.1)
    (h : (t.follow c attempt deadline progress).world? = some w') :
    w₀.Notes c.place events w' ∨ ∃ answer, w₀.Notes c.place (events ++ [.answered answer]) w' := by
  obtain ⟨w, progress⟩ := progress
  cases progress with
  | crashed reason => cases h
  | waits call =>
    cases deadline <;> cases h
    · exact .inl (noted.still rfl)
    · exact .inl noted
  | finished answer =>
    have told : w₀.Notes c.place (events ++ [.answered answer])
        (w.note c.place (.answered answer)) := noted.trans (World.notes_note rfl)
    cases answer with
    | ok output =>
      cases h
      exact .inr ⟨_, told⟩
    | error cause => exact .inr ⟨_, told.still (retry_history h)⟩

/-- A call is abandoned by an interruption, or because its time is up. -/
theorem due_of_abandoned (h : (t.move c w).world? = some w') (noted : w.Notes c.place events w')
    (mem : .abandoned ∈ events) : ∃ attempt deadline call,
      t.phase = .calling attempt deadline call ∧ events = [.abandoned] ∧
        (w.isDue deadline = true ∨ c.interrupt = true ∧ c.cancelled = true) := by
  have silent (same : w'.history = w.history) : False := by
    rw [noted.unique (.nothing same)] at mem
    cases mem
  have followed {quiet : List Event} (unended : Quiet quiet)
      (told : w.Notes c.place quiet w' ∨ ∃ answer, w.Notes c.place (quiet ++ [.answered answer]) w') :
      False := by
    rcases told with told | ⟨answer, told⟩
    · rw [noted.unique told] at mem
      cases unended _ mem
    · rw [noted.unique told] at mem
      rcases List.mem_append.mp mem with mem | mem
      · cases unended _ mem
      · simp at mem
  unfold move at h
  split at h
  next made ready =>
    split at h
    · cases h
      exact (silent rfl).elim
    unfold begin at h
    dsimp only at h
    split at h
    · exact (silent (retry_history h)).elim
    · exact (followed (by simp [Quiet, Event.endsAttempt])
        (follow_notes (World.notes_begun rfl _) h)).elim
  next attempt deadline call calling =>
    have abandoned : w.Notes c.place [.abandoned] (w.note c.place .abandoned) :=
      World.notes_note rfl
    split at h
    · exact (followed (by simp [Quiet]) (follow_notes (World.notes_perform _ _) h)).elim
    split at h
    · rename_i both
      cases h
      rw [Bool.and_eq_true] at both
      exact ⟨_, _, _, calling, noted.unique abandoned, .inr both⟩
    split at h
    · exact ⟨_, _, _, calling, noted.unique (abandoned.still (retry_history h)), .inl ‹_›⟩
    · cases h
  next made timer pausing =>
    split at h
    · cases h
      exact (silent rfl).elim
    split at h
    · cases h
      exact (silent rfl).elim
    · cases h

theorem retry_not_calling (h : t.retry c attempt e w = .moved w' t')
    {attempt' : Nat} (calling : t'.phase = .calling attempt' deadline call) : False := by
  obtain ⟨-, -, -, timer, rfl⟩ := retry_moved h
  cases calling

/-- A call that goes on keeps its deadline, and one that is made gets it. -/
theorem deadline_of_follow {earlier : Option Timer} {attempt' : Nat}
    {progress : World × Progress (Except Cause (Option String))}
    (h : t.follow c attempt earlier progress = .moved w' t')
    (calling : t'.phase = .calling attempt' deadline call) :
    earlier = some deadline ∨
      earlier = none ∧ deadline.due = progress.1.clock + c.engine.policy.attemptLimit := by
  obtain ⟨w, progress⟩ := progress
  cases progress with
  | crashed reason => cases h
  | waits call' =>
    cases earlier with
    | some timer =>
      cases h
      cases calling
      exact .inl rfl
    | none =>
      cases h
      cases calling
      exact .inr ⟨rfl, rfl⟩
  | finished answer =>
    cases answer with
    | ok output => cases h
    | error cause => exact (retry_not_calling h calling).elim

/-- The deadline of a call is set when the call is made. -/
theorem deadline_of_move (h : t.move c w = .moved w' t')
    (calling : t'.phase = .calling attempt deadline call) :
    (∃ attempt call, t.phase = .calling attempt deadline call) ∨
      (∃ made, t.phase = .ready made) ∧ deadline.due = w.clock + c.engine.policy.attemptLimit := by
  unfold move at h
  split at h
  next made ready =>
    split at h
    · cases h
    unfold begin at h
    dsimp only at h
    split at h
    · exact (retry_not_calling h calling).elim
    · refine .inr ⟨⟨made, ready⟩, ?_⟩
      rcases deadline_of_follow h calling with earlier | ⟨-, due⟩
      · cases earlier
      · rw [due, (World.atOnce_perform _ _ _).1]
        rfl
  next attempt' deadline' call' before =>
    split at h
    · rcases deadline_of_follow h calling with earlier | ⟨none, -⟩
      · obtain rfl := Option.some.inj earlier
        exact .inl ⟨_, _, before⟩
      · cases none
    split at h
    · cases h
    split at h
    · exact (retry_not_calling h calling).elim
    · cases h
  next made timer pausing =>
    split at h
    · cases h
    split at h
    · cases h
      cases calling
    · cases h

/-- A call in flight may take so many milliseconds, from when it was made. -/
def Timed (limit : Nat) (records : List Record) (t : Trial) : Prop :=
  ∀ attempt deadline call, t.phase = .calling attempt deadline call →
    ∃ called, lastCall? records = some called ∧ deadline.due = called + limit

theorem timed_of_move (h : t.move c w = .moved w' t') (noted : w.Notes c.place events w')
    (told : news.map (·.event) = events) (times : ∀ r ∈ news, r.time = w.clock)
    (timed : t.Timed c.engine.policy.attemptLimit records) :
    t'.Timed c.engine.policy.attemptLimit (records ++ news) := by
  intro attempt deadline call calling
  obtain ⟨events', noted', goes⟩ := move_moved h
  obtain rfl := noted.unique noted'
  cases goes with
  | pauses | expires | resumes => cases calling
  | waits asks =>
    cases asks with
    | before before =>
      obtain rfl := List.map_eq_nil_iff.mp told
      rcases deadline_of_move h calling with ⟨attempt, call, same⟩ | ⟨⟨made, ready⟩, -⟩
      · simpa using timed _ _ _ same
      · cases before.symm.trans ready
    | now ready free =>
      obtain ⟨r, rfl, event⟩ := List.map_eq_singleton_iff.mp told
      rcases deadline_of_move h calling with ⟨attempt, call, before⟩ | ⟨-, due⟩
      · cases ready.symm.trans before
      · refine ⟨w.clock, ?_, due⟩
        simp [lastCall?_append, Record.lastCall, event, times r (by simp)]

theorem patient_of_move (h : (t.move c w).world? = some w') (noted : w.Notes c.place events w')
    (told : news.map (·.event) = events) (times : ∀ r ∈ news, r.time = w.clock)
    (calm : c.interrupt = false) (timed : t.Timed limit records) (patient : Patient limit records) :
    Patient limit (records ++ news) := by
  refine patient.append fun before r after split abandoned => ?_
  have mem : .abandoned ∈ events := by
    rw [← told, ← abandoned]
    exact List.mem_map_of_mem (by simp [split])
  obtain ⟨attempt, deadline, call, calling, only, due | ⟨interrupt, -⟩⟩ :=
    due_of_abandoned h noted mem
  · obtain ⟨called, last, limit⟩ := timed _ _ _ calling
    have time := times r (by simp [split])
    obtain ⟨rfl, -⟩ : before = [] ∧ r.event = .abandoned ∧ after = [] := by
      rw [only, split] at told
      simpa [List.append_eq_singleton_iff] using told
    simp only [World.isDue, decide_eq_true_eq] at due
    exact ⟨called, by simpa using last, by omega⟩
  · simp [calm] at interrupt

end Trial

namespace OwnSteps

variable {agent : Agent} {own own' : OwnSteps} {result : StepsResult}

/-- A call in flight may take so many milliseconds, from when it was made. -/
def Timed (limit : Nat) (records : List Record) : OwnSteps → Prop
  | trying _ trial _ _ => trial.Timed limit records
  | _ => True

theorem timed_of_move (h : own.move c stage agent w = .moved w' own')
    (noted : w.Notes c.place events w') (told : news.map (·.event) = events)
    (times : ∀ r ∈ news, r.time = w.clock)
    (timed : own.Timed c.engine.policy.attemptLimit records) :
    own'.Timed c.engine.policy.attemptLimit (records ++ news) := by
  obtain ⟨events', -, goes⟩ := move_moved h
  cases goes with
  | resolved free binding =>
    intro attempt deadline call calling
    cases calling
  | @tries container trial trial' todo outputs =>
    simp only [move] at h
    cases moved : trial.move c w with
    | moved w₁ trial₁ =>
      rw [moved] at h
      cases h
      exact Trial.timed_of_move moved noted told times timed
    | ended w₁ answer => cases answer <;> simp [moved, followTrial] at h
    | _ => simp [moved, followTrial] at h
  | _ => trivial

theorem Goes.quiet (h : own.Goes c stage agent events own')
    (untried : ∀ container trial todo outputs, own ≠ trying container trial todo outputs) :
    Quiet events := by
  cases h with
  | host | through | cancelled | unresolved | resolved => simp [Quiet]
  | pulling fetches => exact fetches.quiet
  | pulled fetches => exact fetches.quiet.concat rfl
  | starting starts => exact starts.quiet
  | started starts => exact starts.quiet.concat rfl
  | stopping stops => exact stops.quiet
  | tries | succeeds | fails => exact absurd rfl (untried _ _ _ _)

theorem Ends.quiet (h : own.Ends c agent events result) : Quiet events := by
  cases h with
  | cancelled | host => simp [Quiet]
  | unpulled fetches => exact fetches.quiet
  | unstarted starts => exact starts.quiet
  | stopped stops => exact stops.quiet.concat rfl

theorem followTrial_world? (container : Option String) (todo : List Step) (outputs : List String)
    (turn : Turn Trial StepResult) :
    (followTrial container todo outputs turn).world? = turn.world? := by
  cases turn with
  | ended w answer => cases answer <;> rfl
  | _ => rfl

theorem patient_of_move (h : (own.move c stage agent w).world? = some w')
    (noted : w.Notes c.place events w') (told : news.map (·.event) = events)
    (times : ∀ r ∈ news, r.time = w.clock) (calm : c.interrupt = false)
    (timed : own.Timed limit records) (patient : Patient limit records) :
    Patient limit (records ++ news) := by
  have unended (quiet : Quiet events) : Patient limit (records ++ news) := by
    refine patient.append fun before r after split abandoned => ?_
    have mem : r.event ∈ events := told ▸ List.mem_map_of_mem (by simp [split])
    cases (quiet _ (abandoned ▸ mem) : Event.endsAttempt .abandoned = false)
  by_cases tried : ∃ container trial todo outputs, own = trying container trial todo outputs
  · obtain ⟨container, trial, todo, outputs, rfl⟩ := tried
    rw [move, followTrial_world?] at h
    exact Trial.patient_of_move h noted told times calm timed patient
  · have untried := fun container trial todo outputs same =>
      tried ⟨container, trial, todo, outputs, same⟩
    cases moved : own.move c stage agent w with
    | moved w₁ own₁ =>
      rw [moved] at h
      cases h
      obtain ⟨events', noted', goes⟩ := move_moved moved
      exact unended (noted.unique noted' ▸ goes.quiet untried)
    | ended w₁ result =>
      rw [moved] at h
      cases h
      obtain ⟨events', noted', ends⟩ := move_ended moved
      exact unended (noted.unique noted' ▸ ends.quiet)
    | _ => simp [moved, Turn.world?] at h

end OwnSteps

end Times

namespace StageRun

variable {inherited agent : Agent} {c : Context} {w w' : World} {past : List Moment}
  {run run' : StageRun} {branches : Option StageResults} {own : OwnSteps} {path : List Nat}

/-- A turn of a stage whose own steps are under way is a turn of the steps. -/
theorem own_of_moved (moved : (working stage agent branches own).move c w path = .moved w' run') :
    (own.move c stage agent w).world? = some w' ∧
      ∀ own', run' = working stage agent branches own' →
        own.move c stage agent w = .moved w' own' := by
  cases path with
  | cons i path => cases moved
  | nil =>
    simp only [move, moveHere] at moved
    cases ho : own.move c stage agent w with
    | blocked | crashed => simp [ho, followSteps] at moved
    | moved w₁ own₁ =>
      rw [ho] at moved
      cases moved
      exact ⟨rfl, by simp⟩
    | ended w₁ result =>
      rw [ho] at moved
      cases moved
      exact ⟨rfl, by simp⟩

/-- A call in flight may take so many milliseconds, from when it was made. -/
def Timed (limit : Nat) (noted : List Record) : StageRun → Prop
  | working _ _ _ own => own.Timed limit noted
  | _ => True

theorem timed_ownSteps (limit : Nat) (noted : List Record) :
    Timed limit noted (ownSteps stage agent branches) :=
  ownSteps_cases branches (fun _ => trivial) trivial

/-- A stage that does not interrupt a branch has it wait for a call until its time is up. -/
theorem Run.patient (so : Run stage inherited c past run) (calm : c.interrupt = false) :
    run.Timed c.engine.policy.attemptLimit (recordsAt c.place (records past)) ∧
      Patient c.engine.policy.attemptLimit (recordsAt c.place (records past)) := by
  induction so with
  | begins c => exact ⟨trivial, Receipts.patient (by simp [recordsAt, Receipts])⟩
  | cancelled so ih => exact ih calm
  | @turn c past run run' path w w' news so moved noted ih =>
    obtain ⟨timed, patient⟩ := ih calm
    -- Where branches are or were under way last, only receipts have been noted.
    have received (h : Receipts (marksAt c.place (records (past ++ [⟨path, run, run', news⟩])))) :
        Patient c.engine.policy.attemptLimit
          (recordsAt c.place (records (past ++ [⟨path, run, run', news⟩]))) :=
      (marksAt_eq _ _ ▸ h).patient
    have traced := so.traced
    have later := (so.turn moved noted).traced
    have silent : w.Notes c.place [] w := .nothing rfl
    have told {events : List Event} (notes : w.Notes c.place events w') :
        (recordsAt c.place news).map (·.event) = events := by
      rw [← marksAt_eq, notes.marksAt noted]
    have times : ∀ r ∈ recordsAt c.place news, r.time = w.clock := by
      intro r mem
      have turned : (run.move c w path).AtOnce w := run.move_atOnce path
      rw [moved] at turned
      exact turned.time_eq noted r (List.mem_filter.mp mem).1
    cases turned_of_move moved with
    | enters =>
      have idle : marksAt c.place (records past) = [] := traced
      refine ⟨enter_cases (fun _ => timed_ownSteps _ _) trivial, received ?_⟩
      rw [marksAt_concat silent noted, idle]
      simp [Receipts]
    | leaves all =>
      refine ⟨leaveJoin_cases _ _ (fun _ _ _ => trivial) fun _ _ => timed_ownSteps _ _,
        received ?_⟩
      rw [marksAt_concat silent noted, List.append_nil]
      exact traced
    | works notes goes =>
      obtain ⟨rfl, rfl⟩ := so.shape
      obtain ⟨turn, own⟩ := own_of_moved moved
      rw [records_concat, recordsAt_append]
      exact ⟨OwnSteps.timed_of_move (own _ rfl) notes (told notes) times timed,
        OwnSteps.patient_of_move turn notes (told notes) times calm timed patient⟩
    | settles notes ends =>
      obtain ⟨rfl, rfl⟩ := so.shape
      obtain ⟨turn, -⟩ := own_of_moved moved
      rw [records_concat, recordsAt_append]
      exact ⟨trivial, OwnSteps.patient_of_move turn notes (told notes) times calm timed patient⟩
    | receives there => exact ⟨trivial, received later⟩
    | inside there unsettled inner => exact ⟨trivial, received later⟩

end StageRun
end PipelineRunner
