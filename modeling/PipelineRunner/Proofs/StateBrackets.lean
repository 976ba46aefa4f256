import PipelineRunner.Proofs.Endings
import PipelineRunner.Workflow.State

/-! The state of a workflow around its execution. An execution that is not told which workflow it is
ends at once and leaves everything as it was. Any other moves the state on before the first thing
that it does and behind the last one, so that whatever it does it does while the workflow is said to
be running. The clones of a handle share one state cell, so advances on any of them are advances of
the cell. It holds the latest of its states, and whoever looks at it now and then sees some of them,
in their order. -/

namespace PipelineRunner

/-- A state is among some states, and none of them comes later. -/
structure WorkflowState.IsLatest (s : WorkflowState) (among : List WorkflowState) : Prop where
  mem : s ∈ among
  latest : ∀ t ∈ among, t.code ≤ s.code

namespace StateCell

/-- The cell behind some advances. -/
def after (cell : StateCell) (nexts : List WorkflowState) : StateCell :=
  nexts.foldl (fun cell next => (cell.advance next).1) cell

/-- What is seen in cells one after the other by someone who knows of so many moves: the states of
those that have moved again. -/
def seen (known : Nat) : List StateCell → List WorkflowState
  | [] => []
  | cell :: rest =>
    if cell.moves = known then seen known rest else cell.state :: seen cell.moves rest

variable {cell : StateCell} {next : WorkflowState} {nexts : List WorkflowState}

@[simp] theorem after_nil : cell.after [] = cell := rfl

@[simp] theorem after_cons : cell.after (next :: nexts) = (cell.advance next).1.after nexts := rfl

theorem after_append (more : List WorkflowState) :
    cell.after (nexts ++ more) = (cell.after nexts).after more :=
  List.foldl_append

theorem advance_snd : (cell.advance next).2 = true ↔ cell.state.code < next.code := by
  simp only [advance, WorkflowState.before, decide_eq_true_eq]
  split <;> simp_all

theorem advance_of_lt (later : cell.state.code < next.code) :
    cell.advance next = (⟨next, cell.moves + 1⟩, true) := by
  simp [advance, WorkflowState.before, later]

theorem advance_of_le (earlier : next.code ≤ cell.state.code) :
    cell.advance next = (cell, false) := by
  simp [advance, WorkflowState.before, Int.not_lt.mpr earlier]

theorem isLatest_after : (cell.after nexts).state.IsLatest (cell.state :: nexts) := by
  induction nexts generalizing cell with
  | nil => exact ⟨.head _, by simp⟩
  | cons next nexts ih =>
    obtain ⟨mem, latest⟩ := @ih (cell.advance next).1
    obtain ⟨first, others⟩ := List.forall_mem_cons.mp latest
    rw [after_cons]
    by_cases later : cell.state.code < next.code
    · rw [advance_of_lt later] at mem first others ⊢
      refine ⟨.tail _ mem, List.forall_mem_cons.mpr ⟨?_, List.forall_mem_cons.mpr ⟨first, others⟩⟩⟩
      exact Int.le_of_lt (Int.lt_of_lt_of_le later first)
    · have earlier := Int.not_lt.mp later
      rw [advance_of_le earlier] at mem first others ⊢
      refine ⟨?_, List.forall_mem_cons.mpr ⟨first, List.forall_mem_cons.mpr ⟨?_, others⟩⟩⟩
      · exact (List.mem_cons.mp mem).elim (fun same => same ▸ .head _) fun mem => .tail _ (.tail _ mem)
      · exact Int.le_trans earlier first

/-- An advance tells whether its state comes later than all before it. -/
theorem advance_tells :
    ((cell.after nexts).advance next).2 = true ↔ ∀ s ∈ cell.state :: nexts, s.code < next.code := by
  obtain ⟨mem, latest⟩ := @isLatest_after cell nexts
  rw [advance_snd]
  exact ⟨fun later s among => Int.lt_of_le_of_lt (latest s among) later, fun all => all _ mem⟩

/-- Some advances leave a cell alone, or it has moved to one of their states. -/
theorem after_cases :
    cell.after nexts = cell ∨
      cell.moves < (cell.after nexts).moves ∧ (cell.after nexts).state ∈ nexts := by
  induction nexts generalizing cell with
  | nil => exact .inl rfl
  | cons next nexts ih =>
    rw [after_cons]
    by_cases later : cell.state.code < next.code
    · rw [advance_of_lt later]
      right
      rcases @ih ⟨next, cell.moves + 1⟩ with still | ⟨moved, mem⟩
      · rw [still]
        exact ⟨Nat.lt_succ_self _, .head _⟩
      · exact ⟨Nat.lt_of_succ_lt moved, .tail _ mem⟩
    · rw [advance_of_le (Int.not_lt.mp later)]
      exact ih.imp_right fun ⟨moved, mem⟩ => ⟨moved, .tail _ mem⟩

/-- Whoever looks at a cell behind so many of its advances, time after time, sees some of their
states in their order. -/
theorem seen_sublist {first : Nat} {times : List Nat}
    (inTurn : (first :: times).Pairwise (· ≤ ·)) :
    (seen (cell.after (nexts.take first)).moves
      (times.map fun n => cell.after (nexts.take n))).Sublist (nexts.drop first) := by
  induction times generalizing first with
  | nil => exact List.nil_sublist _
  | cons time times ih =>
    obtain ⟨here, later⟩ := List.pairwise_cons.mp inTurn
    obtain ⟨gap, rfl⟩ := Nat.exists_eq_add_of_le (here time (.head _))
    have rest := ih later
    have moved := @after_cases (cell.after (nexts.take first)) ((nexts.drop first).take gap)
    rw [← after_append, ← List.take_add] at moved
    rw [List.map_cons, seen]
    rcases moved with still | ⟨moved, mem⟩
    · rw [if_pos (by rw [still]), ← still]
      exact rest.trans (List.drop_sublist_drop_left _ (Nat.le_add_right _ _))
    · rw [if_neg (Nat.ne_of_gt moved), ← List.take_append_drop gap (nexts.drop first),
        List.drop_drop]
      exact (List.singleton_sublist.mpr mem).append rest

end StateCell

/-! ### Which workflow it is -/

/-- The properties name a workflow, by a text with something in it or by a number. -/
inductive Properties.Identifies (properties : Properties) : String → Prop where
  | text {id : String} (told : List.lookup workflowKey properties = some (.string id))
      (some_ : id ≠ "") : Identifies properties id
  | number {n : Numeral} {value : Numeral.Value}
      (told : List.lookup workflowKey properties = some (.number n)) (known : n.value? = some value) :
      Identifies properties value.text

/-- Whether a value is neither a text nor a number that has a value. -/
def Json.isNoName : Json → Bool
  | .string _ => false
  | .number n => n.value?.isNone
  | _ => true

/-- The properties name no workflow. -/
inductive Properties.Anonymous (properties : Properties) : Prop where
  | missing (untold : List.lookup workflowKey properties = none)
  | empty (told : List.lookup workflowKey properties = some (.string ""))
  | other {value : Json} (told : List.lookup workflowKey properties = some value)
      (noName : value.isNoName = true)

theorem workflowId_eq_ok {properties : Properties} {id : String} :
    properties.workflowId = .ok id ↔ properties.Identifies id := by
  unfold Properties.workflowId
  constructor
  · intro h
    dsimp only at h
    split at h
    next told =>
      split at h
      next => cases h
      next some_ =>
        cases h
        exact .text told some_
    next told =>
      split at h
      next known =>
        cases h
        exact .number told known
      next => cases h
    next => cases h
  · rintro (⟨told, some_⟩ | ⟨told, known⟩)
    · simp [told, some_]
    · simp [told, known]

theorem workflowId_eq_error {properties : Properties} {error : ExecutionError} :
    properties.workflowId = .error error ↔
      properties.Anonymous ∧ error = .missingProperty workflowKey := by
  unfold Properties.workflowId
  constructor
  · intro h
    dsimp only at h
    split at h
    next told =>
      split at h
      next empty =>
        cases h
        exact ⟨.empty (empty ▸ told), rfl⟩
      next => cases h
    next told =>
      split at h
      next => cases h
      next unknown =>
        cases h
        exact ⟨.other told (by simp [Json.isNoName, unknown]), rfl⟩
    next notText notNumber =>
      cases h
      refine ⟨?_, rfl⟩
      cases told : List.lookup workflowKey properties with
      | none => exact .missing told
      | some value =>
        refine .other told ?_
        cases value with
        | string id => exact absurd told (notText id)
        | number n => exact absurd told (notNumber n)
        | _ => rfl
  · rintro ⟨untold | told | ⟨told, noName⟩, rfl⟩
    · simp [untold]
    · simp [told]
    · rename_i value
      cases value with
      | string => cases noName
      | number n =>
        have unknown : n.value? = none := by simpa [Json.isNoName] using noName
        simp [told, unknown]
      | _ => simp [told]

/-- The properties name a workflow or they do not. -/
theorem Properties.anonymous_or_identifies (properties : Properties) :
    properties.Anonymous ∨ ∃ id, properties.Identifies id := by
  cases known : properties.workflowId with
  | error error => exact .inl (workflowId_eq_error.mp known).1
  | ok id => exact .inr ⟨id, workflowId_eq_ok.mp known⟩

/-! ### The moves of a workflow -/

/-- The states that a workflow moves to, by some records. -/
def movesOf (workflow : String) (records : List Record) : List WorkflowState :=
  records.filterMap fun r =>
    match r.event with
    | .entered state => if r.place = ⟨workflow, []⟩ then some state else none
    | _ => none

theorem movesOf_append (workflow : String) (xs ys : List Record) :
    movesOf workflow (xs ++ ys) = movesOf workflow xs ++ movesOf workflow ys :=
  List.filterMap_append

/-- Some records of the stages of a workflow. -/
def OfStages (workflow : String) (records : List Record) : Prop :=
  ∀ r ∈ records, r.place.workflow = workflow ∧ r.place.path ≠ []

theorem OfStages.movesOf_eq {workflow : String} {records : List Record}
    (inside : OfStages workflow records) : movesOf workflow records = [] := by
  refine List.filterMap_eq_nil_iff.mpr fun r mem => ?_
  have elsewhere : r.place ≠ ⟨workflow, []⟩ := fun here => (inside r mem).2 (by rw [here])
  split
  · exact if_neg elsewhere
  · rfl

/-- A record of a move of the workflow. -/
def Record.ofMove (workflow : String) (time : Nat) (state : WorkflowState) : Record :=
  ⟨time, ⟨workflow, []⟩, .entered state⟩

theorem movesOf_ofMove (workflow : String) (time : Nat) (state : WorkflowState) :
    movesOf workflow [Record.ofMove workflow time state] = [state] := by
  simp [movesOf, Record.ofMove]

/-- The workflow is started and runs, and then come records of its stages. -/
def IsUnderWay (workflow : String) (records : List Record) : Prop :=
  ∃ time inner, OfStages workflow inner ∧
    records = Record.ofMove workflow time .started :: Record.ofMove workflow time .running :: inner

/-- Behind the records of its stages the workflow is done. -/
def IsThrough (workflow : String) (records : List Record) : Prop :=
  ∃ opened time, IsUnderWay workflow opened ∧ records = opened ++ [Record.ofMove workflow time .done]

theorem IsUnderWay.append {workflow : String} {records more : List Record}
    (opened : IsUnderWay workflow records) (inside : OfStages workflow more) :
    IsUnderWay workflow (records ++ more) := by
  obtain ⟨time, inner, earlier, rfl⟩ := opened
  exact ⟨time, inner ++ more, List.forall_mem_append.mpr ⟨earlier, inside⟩, rfl⟩

theorem IsUnderWay.movesOf_eq {workflow : String} {records : List Record}
    (opened : IsUnderWay workflow records) : movesOf workflow records = [.started, .running] := by
  obtain ⟨time, inner, inside, rfl⟩ := opened
  simpa [movesOf, Record.ofMove] using inside.movesOf_eq

theorem IsThrough.movesOf_eq {workflow : String} {records : List Record}
    (closed : IsThrough workflow records) :
    movesOf workflow records = [.started, .running, .done] := by
  obtain ⟨opened, time, isOpened, rfl⟩ := closed
  rw [movesOf_append, isOpened.movesOf_eq, movesOf_ofMove]
  rfl

/-- Whether an event is a move of a state. -/
def Event.isMove : Event → Bool
  | .entered _ => true
  | _ => false

/-- What is no move of the workflow stands behind its first moves. -/
theorem IsUnderWay.before {workflow : String} {before after : List Record} {r : Record}
    (underWay : IsUnderWay workflow (before ++ r :: after)) (still : r.event.isMove = false) :
    IsUnderWay workflow before := by
  obtain ⟨time, inner, inside, split⟩ := underWay
  cases before with
  | nil =>
    obtain ⟨rfl, -⟩ := List.cons.inj split
    cases still
  | cons first before =>
    obtain ⟨rfl, rest⟩ := List.cons.inj split
    cases before with
    | nil =>
      obtain ⟨rfl, -⟩ := List.cons.inj rest
      cases still
    | cons second before =>
      obtain ⟨rfl, rfl⟩ := List.cons.inj rest
      exact ⟨time, before, (List.forall_mem_append.mp inside).1, rfl⟩

theorem IsThrough.before {workflow : String} {before after : List Record} {r : Record}
    (through : IsThrough workflow (before ++ r :: after)) (still : r.event.isMove = false) :
    IsUnderWay workflow before := by
  obtain ⟨opened, time, underWay, split⟩ := through
  rcases List.eq_nil_or_concat after with rfl | ⟨after, last, rfl⟩
  · obtain ⟨rfl, same⟩ := List.append_inj' split rfl
    obtain ⟨rfl, -⟩ := List.cons.inj same
    cases still
  · rw [List.concat_eq_append, ← List.cons_append, ← List.append_assoc] at split
    obtain ⟨rfl, -⟩ := List.append_inj' split rfl
    exact underWay.before still

/-! ### Runs of an execution -/

/-- A state that no execution has moved on. -/
def StateCell.IsEarly (cell : StateCell) : Prop := cell.state = .undefined ∨ cell.state = .pending

theorem StateCell.IsEarly.advance_started {cell : StateCell} (early : cell.IsEarly) :
    cell.advance .started = (⟨.started, cell.moves + 1⟩, true) := by
  refine advance_of_lt ?_
  rcases early with h | h <;> rw [h] <;> decide

theorem StateCell.IsEarly.runs {cell : StateCell} (early : cell.IsEarly) :
    cell.after [.started, .running] = ⟨.running, cell.moves + 2⟩ := by
  rw [after_cons, early.advance_started]
  rfl

theorem StateCell.IsEarly.ends {cell : StateCell} (early : cell.IsEarly) :
    cell.after [.started, .running, .done] = ⟨.done, cell.moves + 3⟩ := by
  rw [after_cons, early.advance_started]
  rfl

namespace Execution

/-- What is noted of an execution that knows its workflow, by how far it has come. -/
def Phase.Brackets (workflow : String) (records : List Record) : Phase → Prop
  | .fresh => records = []
  | .between .. => IsUnderWay workflow records
  | .inStage .. => IsUnderWay workflow records
  | .over (.ok _) => IsThrough workflow records
  | .over (.error _) => False
  | .crashed _ => False

variable {engine : Engine} {pipeline : Pipeline} {properties : Properties} {state : StateCell}
  {past : List Moment} {e e' : Execution} {w w' : World} {path : List Nat} {workflow : String}
  {news : List Record}

theorem enter_of_moved {next : WorkflowState} {cell : StateCell}
    (moves : e.state.advance next = (cell, true)) :
    e.enter workflow next w = (w.note ⟨workflow, []⟩ (.entered next), { e with state := cell }) := by
  simp [enter, moves]

/-- What is told of a history that grows by some records. -/
theorem news_eq {more : List Record} (grows : w'.history = more.reverse ++ w.history)
    (noted : w'.history = news.reverse ++ w.history) : news = more :=
  List.reverse_inj.mp (List.append_cancel_right (noted.symm.trans grows))

theorem news_of_begins (fresh : e.phase = .fresh) (known : e.properties.workflowId = .ok workflow)
    (early : e.state.IsEarly) (moved : e.move engine w path = .moved w' e')
    (noted : w'.history = news.reverse ++ w.history) :
    news = [.ofMove workflow w.clock .started, .ofMove workflow w.clock .running] := by
  simp only [move, fresh, begin, known, enter_of_moved early.advance_started] at moved
  rw [enter_of_moved rfl] at moved
  cases moved
  exact news_eq rfl noted

/-- An execution that runs ends with its last move. -/
theorem news_of_finishes {index : Nat} {results : StageResults}
    (phase : e.phase = .between workflow index [] results) (running : e.state.state = .running)
    (moved : e.move engine w path = .moved w' e') (noted : w'.history = news.reverse ++ w.history) :
    news = [.ofMove workflow w.clock .done] := by
  have done : e.state.advance .done = (⟨.done, e.state.moves + 1⟩, true) :=
    StateCell.advance_of_lt (by rw [running]; decide)
  simp only [move, phase, finish, enter_of_moved done] at moved
  cases moved
  exact news_eq rfl noted

theorem news_of_starts {index : Nat} {stage : Stage} {todo : List Stage} {results : StageResults}
    (phase : e.phase = .between workflow index (stage :: todo) results)
    (moved : e.move engine w path = .moved w' e') (noted : w'.history = news.reverse ++ w.history) :
    OfStages workflow news := by
  simp only [move, phase] at moved
  cases moved
  have told : news = [⟨w.clock, ⟨workflow, [index]⟩, _⟩] := news_eq rfl noted
  simp [told, OfStages]

/-- A stage that has failed is told of before the last move. -/
theorem news_of_fails {index : Nat} {stage : String} {output : StageOutput} {error : StepError}
    {todo : List Stage} {results : StageResults}
    (phase : e.phase = .inStage workflow index stage (.settled output (some error)) todo results)
    (running : e.state.state = .running) (moved : e.move engine w path = .moved w' e')
    (noted : w'.history = news.reverse ++ w.history) :
    ∃ inner, OfStages workflow inner ∧ news = inner ++ [.ofMove workflow w.clock .done] := by
  have done : e.state.advance .done = (⟨.done, e.state.moves + 1⟩, true) :=
    StateCell.advance_of_lt (by rw [running]; decide)
  simp only [move, phase, leaveStage, finish, enter_of_moved done] at moved
  cases moved
  exact ⟨[⟨w.clock, ⟨workflow, [index]⟩, _⟩], by simp [OfStages], news_eq rfl noted⟩

/-- A turn inside of a stage is noted at its places. -/
theorem news_inside {index : Nat} {run run' : StageRun}
    (moved : run.move (outermost engine workflow index) w path = .moved w' run')
    (noted : w'.history = news.reverse ++ w.history) : OfStages workflow news := by
  obtain ⟨way, below⟩ := StageRun.place_of_moved moved noted
  intro r mem
  rw [below r mem]
  exact ⟨rfl, by simp [Place.below]⟩

/-- A turn adds to what stands between the moves of the state, or moves it on. -/
theorem brackets_of_move {records : List Record} (known : e.properties.workflowId = .ok workflow)
    (fits : e.phase.Fits e.pipeline e.properties) (early : e.phase = .fresh → e.state.IsEarly)
    (running : IsUnderWay workflow records → e.state.state = .running)
    (moved : e.move engine w path = .moved w' e') (noted : w'.history = news.reverse ++ w.history)
    (brackets : e.phase.Brackets workflow records) :
    e'.phase.Brackets workflow (records ++ news) ∧
      e'.state = e.state.after (movesOf workflow news) := by
  cases turned_of_move moved with
  | refused fresh missing =>
    rw [known] at missing
    cases missing
  | begins fresh known' =>
    obtain rfl := Except.ok.inj (known'.symm.trans known)
    rw [fresh] at brackets
    obtain rfl : records = [] := brackets
    obtain rfl := news_of_begins fresh known (early fresh) moved noted
    refine ⟨⟨w.clock, [], by simp [OfStages], rfl⟩, ?_⟩
    simp [movesOf, Record.ofMove]
  | finishes phase =>
    rw [phase] at brackets fits
    obtain rfl := Except.ok.inj (fits.1.symm.trans known)
    obtain rfl := news_of_finishes phase (running brackets) moved noted
    refine ⟨⟨records, w.clock, brackets, rfl⟩, ?_⟩
    rw [movesOf_ofMove, StateCell.after_cons, StateCell.after_nil]
  | starts phase =>
    rw [phase] at brackets fits
    obtain rfl := Except.ok.inj (fits.1.symm.trans known)
    have inside := news_of_starts phase moved noted
    exact ⟨brackets.append inside, by rw [inside.movesOf_eq, StateCell.after_nil]⟩
  | succeeds phase =>
    rw [phase] at brackets
    obtain rfl : news = [] := news_eq rfl noted
    exact ⟨by rwa [List.append_nil], rfl⟩
  | fails phase =>
    rw [phase] at brackets fits
    obtain rfl := Except.ok.inj (fits.1.symm.trans known)
    obtain ⟨inner, inside, rfl⟩ := news_of_fails phase (running brackets) moved noted
    refine ⟨⟨records ++ inner, w.clock, brackets.append inside, by simp⟩, ?_⟩
    rw [movesOf_append, inside.movesOf_eq, movesOf_ofMove, List.nil_append, StateCell.after_cons,
      StateCell.after_nil]
  | inside phase unsettled inner =>
    rw [phase] at brackets fits
    obtain rfl := Except.ok.inj (fits.1.symm.trans known)
    have inside := news_inside inner noted
    exact ⟨brackets.append inside, by rw [inside.movesOf_eq, StateCell.after_nil]⟩

/-- An execution that knows its workflow brackets what it does with the moves of its state. -/
theorem Run.bracketed (known : properties.workflowId = .ok workflow) (early : state.IsEarly)
    (so : Run engine pipeline properties state past e) :
    e.phase.Brackets workflow (records past) ∧
      e.state = state.after (movesOf workflow (records past)) := by
  induction so with
  | begins => exact ⟨rfl, rfl⟩
  | called so rota ih => exact ih
  | @turn past e e' path w w' news so moved noted ih =>
    obtain ⟨rfl, rfl, fits⟩ := so.fits
    obtain ⟨brackets, told⟩ := ih
    have fresh (phase : e.phase = .fresh) : e.state.IsEarly := by
      rw [phase] at brackets
      rw [told, show records past = [] from brackets]
      exact early
    obtain ⟨brackets, moves⟩ := brackets_of_move known fits fresh
      (fun underWay => by rw [told, underWay.movesOf_eq, early.runs]) moved noted brackets
    rw [records_concat]
    exact ⟨brackets, by rw [moves, told, movesOf_append, StateCell.after_append]⟩

/-- An execution that does not know its workflow does nothing at all. -/
theorem Run.untouched (anonymous : properties.Anonymous)
    (so : Run engine pipeline properties state past e) :
    records past = [] ∧ e.state = state ∧
      (e.phase = .fresh ∨ e.phase = .over (.error (.missingProperty workflowKey))) := by
  have unknown := workflowId_eq_error.mpr ⟨anonymous, rfl⟩
  induction so with
  | begins => exact ⟨rfl, rfl, .inl rfl⟩
  | called so rota ih => exact ih
  | @turn past e e' path w w' news so moved noted ih =>
    obtain ⟨rfl, rfl, fits⟩ := so.fits
    obtain ⟨nothing, same, phase⟩ := ih
    have fresh : e.phase = .fresh := phase.resolve_right fun through => by
      simp [move, through] at moved
    simp only [move, fresh, begin, unknown] at moved
    cases moved
    obtain rfl : news = [] := news_eq rfl noted
    exact ⟨by simpa using nothing, same, .inr rfl⟩

/-- The states that an execution moves its workflow to come in their order. -/
theorem Phase.Brackets.moves_prefix {phase : Phase} {records : List Record}
    (brackets : phase.Brackets workflow records) :
    movesOf workflow records <+: [.started, .running, .done] := by
  match phase, brackets with
  | .fresh, nothing =>
    rw [show records = [] from nothing]
    exact List.nil_prefix
  | .between .., underWay | .inStage .., underWay =>
    rw [IsUnderWay.movesOf_eq underWay]
    exact ⟨[.done], rfl⟩
  | .over (.ok report), through =>
    exact (IsThrough.movesOf_eq through).symm ▸ List.prefix_rfl

theorem Phase.Brackets.before {phase : Phase} {before after : List Record} {r : Record}
    (brackets : phase.Brackets workflow (before ++ r :: after)) (still : r.event.isMove = false) :
    IsUnderWay workflow before := by
  match phase, brackets with
  | .fresh, nothing => cases List.append_eq_nil_iff.mp nothing |>.2
  | .between .., underWay | .inStage .., underWay => exact IsUnderWay.before underWay still
  | .over (.ok report), through => exact IsThrough.before through still

/-- What a run of an execution shows of the state of its workflow. -/
structure Bracketed (workflow : String) (state : StateCell) (past : List Moment) (e : Execution) :
    Prop where
  /-- The state is told by the records. -/
  told : e.state = state.after (movesOf workflow (records past))
  /-- Someone who subscribes behind so many moves and then looks time after time. -/
  seen : ∀ first times, (first :: times).Pairwise (· ≤ ·) →
    let moves := movesOf workflow (records past)
    let values := StateCell.seen (state.after (moves.take first)).moves
      (times.map fun n => state.after (moves.take n))
    values.Sublist [.started, .running, .done] ∧ values.Pairwise (·.code < ·.code)
  /-- Whatever else is done, is done while the workflow runs. -/
  running : ∀ before r after, records past = before ++ r :: after → r.event.isMove = false →
    (state.after (movesOf workflow before)).state = .running
  /-- In the end there is a report, and the workflow is done. -/
  done : ∀ result, e.result? = some result →
    (∃ report, result = .ok report) ∧ e.state.state = .done

theorem Run.isBracketed (known : properties.workflowId = .ok workflow) (early : state.IsEarly)
    (so : Run engine pipeline properties state past e) : Bracketed workflow state past e := by
  obtain ⟨brackets, told⟩ := so.bracketed known early
  refine ⟨told, fun first times inTurn => ?_, fun before r after split still => ?_,
    fun result through => ?_⟩
  · have among := (@StateCell.seen_sublist state _ _ _ inTurn).trans
      ((List.drop_sublist _ _).trans brackets.moves_prefix.sublist)
    exact ⟨among, List.Pairwise.sublist among (by decide)⟩
  · rw [split] at brackets
    rw [(brackets.before still).movesOf_eq, early.runs]
  · unfold result? at through
    split at through
    next result' phase =>
      obtain rfl := Option.some.inj through
      rw [phase] at brackets
      cases result' with
      | error error => cases brackets
      | ok report =>
        refine ⟨⟨report, rfl⟩, ?_⟩
        rw [told, IsThrough.movesOf_eq brackets, early.ends]
    next => cases through

end Execution

namespace SoloExecution

open Execution

/-- By itself an execution that knows its workflow breaks down, or it returns and is done. -/
theorem returns (engine : Engine) (pipeline : Pipeline) {properties : Properties}
    {state : StateCell} {workflow : String} (known : properties.workflowId = .ok workflow)
    (early : state.IsEarly) (world : World) :
    ∃ n, ∀ fuel, n ≤ fuel →
      let s := clockwork.runWithin hasHalted none fuel
        ⟨engine, world, { pipeline, properties, state }, []⟩
      (∃ reason, s.execution.phase = .crashed reason) ∨
        ∃ report, s.execution.result? = some (.ok report) ∧ s.execution.state.state = .done := by
  have fresh : InTime engine pipeline properties state
      ⟨engine, world, { pipeline, properties, state }, []⟩ :=
    ⟨rfl, .inr ⟨[], .begins world⟩⟩
  obtain ⟨n, halts⟩ := fresh.halts
  refine ⟨n, fun fuel enough => ?_⟩
  have halted := halts fuel enough
  obtain ⟨-, broken | ⟨past, so⟩⟩ := Clockwork.runWithin_preserves (m := clockwork)
    (fun _ _ stepped inTime => InTime.step inTime stepped)
    (fun t _ rest _ _ inTime => InTime.moveTo inTime rest t) none fuel fresh
  · exact .inl broken
  · right
    generalize clockwork.runWithin hasHalted none fuel _ = s at so halted
    unfold hasHalted at halted
    split at halted
    next result through =>
      have ended : s.execution.result? = some result := by simp [result?, through]
      obtain ⟨⟨report, rfl⟩, done⟩ := (so.run.isBracketed known early).done _ ended
      exact ⟨report, ended, done⟩
    next broken => exact absurd so.run.fits.2.2 (by simp [broken, Phase.Fits])
    next => cases halted

end SoloExecution

namespace Execution

/-- The state of a workflow brackets its execution. Without an identifier an execution ends at once
and leaves everything as it is. With one its state is started and running before whatever it does,
and done behind that; this is what every subscriber sees, and by itself the execution comes to this
end unless it breaks down. A state cell always holds the latest of its states, and an advance tells
whether it has changed that. -/
theorem state_brackets_execution (engine : Engine) (pipeline : Pipeline) (properties : Properties)
    {state : StateCell} (early : state.IsEarly) :
    (properties.Anonymous ∨ ∃ workflow, properties.Identifies workflow) ∧
    (properties.Anonymous →
      (∀ w path, ∃ e, move engine { pipeline, properties, state } w path = .moved w e ∧
        e.result? = some (.error (.missingProperty workflowKey)) ∧ e.state = state) ∧
      ∀ past e, Run engine pipeline properties state past e →
        records past = [] ∧ e.state = state ∧
          ∀ result, e.result? = some result → result = .error (.missingProperty workflowKey)) ∧
    (∀ workflow, properties.Identifies workflow →
      (∀ past e, Run engine pipeline properties state past e →
        Bracketed workflow state past e) ∧
      ∀ world, ∃ n, ∀ fuel, n ≤ fuel →
        let s := SoloExecution.clockwork.runWithin SoloExecution.hasHalted none fuel
          ⟨engine, world, { pipeline, properties, state }, []⟩
        (∃ reason, s.execution.phase = .crashed reason) ∨
          ∃ report, s.execution.result? = some (.ok report) ∧ s.execution.state.state = .done) ∧
    ∀ (cell : StateCell) (nexts : List WorkflowState),
      (cell.after nexts).state.IsLatest (cell.state :: nexts) ∧
      ∀ next, ((cell.after nexts).advance next).2 = true ↔
        ∀ s ∈ cell.state :: nexts, s.code < next.code := by
  refine ⟨properties.anonymous_or_identifies, fun anonymous => ⟨fun w path => ?_, ?_⟩,
    fun workflow identified => ⟨fun past e so => ?_, ?_⟩,
    fun cell nexts => ⟨StateCell.isLatest_after, fun next => StateCell.advance_tells⟩⟩
  · have unknown := workflowId_eq_error.mpr ⟨anonymous, rfl⟩
    exact ⟨{ pipeline, properties, state, phase := .over (.error (.missingProperty workflowKey)) },
      by simp only [move, begin, unknown], rfl, rfl⟩
  · intro past e so
    obtain ⟨nothing, same, phase⟩ := so.untouched anonymous
    refine ⟨nothing, same, fun result ended => ?_⟩
    rcases phase with fresh | through
    · simp [result?, fresh] at ended
    · simpa [result?, through] using ended.symm
  · exact so.isBracketed (workflowId_eq_ok.mpr identified) early
  · exact SoloExecution.returns engine pipeline (workflowId_eq_ok.mpr identified) early

/-- What is seen by someone who subscribes behind the first move and then looks four times. -/
def Duo.watched : List WorkflowState :=
  let moves := movesOf "duo" (records Duo.played.1)
  let state : StateCell := ⟨.pending, 0⟩
  StateCell.seen (state.after (moves.take 1)).moves
    ([1, 2, 2, 3].map fun n => state.after (moves.take n))

theorem Duo.stops_while_running :
    (∃ before r after, records Duo.played.1 = before ++ r :: after ∧
      r.event = .stop "left:latest" ∧
      ((⟨.pending, 0⟩ : StateCell).after (movesOf "duo" before)).state = .running) ∧
    Duo.watched = [.running, .done] ∧ Duo.watched.Sublist [.started, .running, .done] ∧
    Duo.played.2.2.state.state = .done := by
  have early : (⟨.pending, 0⟩ : StateCell).IsEarly := .inr rfl
  have identified : Duo.properties.Identifies "duo" := .text rfl (by decide)
  obtain ⟨-, -, known, -⟩ :=
    state_brackets_execution Duo.engine Duo.pipeline Duo.properties early
  have bracketed := (known "duo" identified).1 _ _ Duo.run
  refine ⟨?_, by decide +kernel, (bracketed.seen 1 [1, 2, 2, 3] (by decide)).1, ?_⟩
  · have stopped : (records Duo.played.1).any (fun r =>
        r.event.stopId? == some "left:latest") = true := by decide +kernel
    obtain ⟨r, mem, stop⟩ := List.any_eq_true.mp stopped
    have event := Event.stopId?_eq_some.mp (beq_iff_eq.mp stop)
    obtain ⟨before, after, split⟩ := List.append_of_mem mem
    exact ⟨before, r, after, split, event,
      bracketed.running before r after split (by rw [event]; rfl)⟩
  · have ended : Duo.played.2.2.result?.isSome = true := rfl
    obtain ⟨result, ended⟩ := Option.isSome_iff_exists.mp ended
    exact (bracketed.done result ended).2

end Execution

end PipelineRunner
