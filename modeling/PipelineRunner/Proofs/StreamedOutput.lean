import Mathlib.Order.WellFounded
import PipelineRunner.Proofs.OutputPipes
import PipelineRunner.Proofs.WorkCourses

/-! Reading a program loses nothing. Two readers, those who wait for the program and whoever takes
items out of the channel have their turns in any order, and the program goes on beside them. What is
kept throughout is the account of each output: the lines that have been read of it stand in the
channel or have been taken out of it. No order of turns gets stuck or goes on for ever, so that each
comes to its end with all lines. -/

namespace PipelineRunner.Host

namespace Streaming

variable {s s' : Streaming} {stream : OutputStream}

theorem changePipe_eq (s : Streaming) (stream : OutputStream) (f : Pipe → Pipe) :
    (s.changePipe stream f).pipe = Function.update s.pipe stream (f (s.pipe stream)) := by
  funext other
  cases stream <;> cases other <;> rfl

/-- What a turn of the program leaves alone. -/
structure Beside (s s' : Streaming) : Prop where
  label : s'.label = s.label
  channel : s'.channel = s.channel
  waiter : s'.waiter = s.waiter

/-- The turns of the program. -/
inductive ChildTurn (s s' : Streaming) : Prop where
  | writes (stream : OutputStream) (bytes : List UInt8) (rest : Bool → Process)
      (child : s.child = .write stream bytes rest)
      (child' : s'.child = rest (!(s.pipe stream).broken)) (status : s'.status = s.status)
      (pipes : s'.pipe = Function.update s.pipe stream ((s.pipe stream).add bytes))
  | exits (status : ExitStatus) (rest : Unit → Process) (child : s.child = .exited status rest)
      (child' : s'.child = rest ()) (status' : s'.status = some status) (pipes : s'.pipe = s.pipe)
  | closes (stream : OutputStream) (rest : Unit → Process) (child : s.child = .closed stream rest)
      (child' : s'.child = rest ()) (status : s'.status = s.status)
      (pipes : s'.pipe = Function.update s.pipe stream (s.pipe stream).close)

theorem childTurn_cases (moved : s.childTurn = some s') : Beside s s' ∧ ChildTurn s s' := by
  unfold childTurn at moved
  split at moved
  next stream bytes rest child =>
    cases moved
    refine ⟨by cases stream <;> exact ⟨rfl, rfl, rfl⟩, .writes stream bytes rest child ?_ ?_ ?_⟩
    · cases stream <;> rfl
    · cases stream <;> rfl
    · exact changePipe_eq _ stream _
  next status rest child =>
    cases moved
    exact ⟨⟨rfl, rfl, rfl⟩, .exits status rest child rfl rfl rfl⟩
  next stream rest child =>
    cases moved
    refine ⟨by cases stream <;> exact ⟨rfl, rfl, rfl⟩, .closes stream rest child ?_ ?_ ?_⟩
    · cases stream <;> rfl
    · cases stream <;> rfl
    · exact changePipe_eq _ stream _
  next => cases moved

/-- A turn of a reader. -/
structure ReaderTurn (stream : OutputStream) (s s' : Streaming) (q : Pipe)
    (item : Option OutputItem) : Prop where
  space : s.channel.length < room
  reads : (s.pipe stream).read = some (q, item)
  label : s'.label = s.label
  child : s'.child = s.child
  status : s'.status = s.status
  waiter : s'.waiter = s.waiter
  pipes : s'.pipe = Function.update s.pipe stream q
  channel : s'.channel = s.channel ++ item.toList

theorem readerTurn_cases (moved : s.readerTurn stream = some s') :
    ∃ q item, ReaderTurn stream s s' q item := by
  unfold readerTurn at moved
  split at moved
  next => cases moved
  next space =>
    obtain ⟨⟨q, item⟩, reads, rfl⟩ := Option.map_eq_some_iff.mp moved
    refine ⟨q, item, by omega, reads, ?_, ?_, ?_, ?_, changePipe_eq s stream _, ?_⟩ <;>
      cases stream <;> rfl

/-- The turns of those who wait for the program. -/
inductive WaiterTurn (s s' : Streaming) : Prop where
  | joins (status : ExitStatus) (waiting : s.waiter = .waiting) (known : s.status = some status)
      (now : s' = { s with waiter := .joining status })
  | ends (status : ExitStatus) (joining : s.waiter = .joining status)
      (finished : ∀ stream, (s.pipe stream).finished = true)
      (now : s' = { s.push (endItem? s.label status).toList with waiter := .finished })

theorem waiterTurn_cases (moved : s.waiterTurn = some s') : WaiterTurn s s' := by
  unfold waiterTurn at moved
  split at moved
  next status waiting known =>
    exact .joins status waiting known (Option.some.inj moved).symm
  next status joining =>
    split at moved
    next => cases moved
    next through =>
      refine .ends status joining ?_ (Option.some.inj moved).symm
      simp only [Bool.or_eq_true, Bool.not_eq_true', decide_eq_true_eq, not_or,
        Bool.not_eq_false, Bool.and_eq_true] at through
      intro stream
      cases stream
      · exact through.1.1
      · exact through.1.2
  next => cases moved

end Streaming

/-! ### Turns in any order -/

/-- A program that is being read, with what it has written and what has been taken out of the
channel. -/
structure Reading where
  streaming : Streaming
  wrote : OutputStream → List UInt8 := fun _ => []
  taken : List OutputItem := []

namespace Reading

/-- What can happen next, whoever has the next turn: the program or a reader goes on, or those who
wait for the program, or an item is taken out of the channel. -/
inductive Step : Reading → Reading → Prop where
  | child {r : Reading} {s : Streaming} (moved : r.streaming.turn .child = some s) :
      Step r { r with
        streaming := s
        wrote := fun stream => r.wrote stream ++ r.streaming.child.writes stream }
  | reader {r : Reading} {s : Streaming} (stream : OutputStream)
      (moved : r.streaming.turn (.reader stream) = some s) : Step r { r with streaming := s }
  | waiter {r : Reading} {s : Streaming} (moved : r.streaming.turn .waiter = some s) :
      Step r { r with streaming := s }
  | takes {r : Reading} {s : Streaming} {item : OutputItem}
      (received : r.streaming.receive = some (item, s)) :
      Step r { r with streaming := s, taken := r.taken ++ [item] }
  | sleeps {r : Reading} {milliseconds : Nat} {rest : Unit → Process}
      (child : r.streaming.child = .sleep milliseconds rest) :
      Step r { r with
        streaming := { r.streaming with
          out := r.streaming.out.lapse
          err := r.streaming.err.lapse
          child := rest () } }
  | readsFiles {r : Reading} {rest : FileTree → Process}
      (child : r.streaming.child = .readFiles rest) (files : FileTree) :
      Step r { r with streaming := { r.streaming with child := rest files } }
  | writesFiles {r : Reading} {files : FileTree} {rest : Unit → Process}
      (child : r.streaming.child = .writeFiles files rest) :
      Step r { r with streaming := { r.streaming with child := rest () } }

/-- So many steps, one after the other. -/
inductive Steps (r : Reading) : Nat → Reading → Prop where
  | nothing : Steps r 0 r
  | step {n : Nat} {r₁ r₂ : Reading} (steps : Steps r n r₁) (step : Step r₁ r₂) :
      Steps r (n + 1) r₂

/-- Nothing more comes: the readers and those who wait for the program are through, and the channel
is empty. -/
def Ended (r : Reading) : Prop :=
  (∀ stream, (r.streaming.pipe stream).finished = true) ∧ r.streaming.waiter = .finished ∧
    r.streaming.channel = []

/-- The lines of one output among those of both. -/
def linesOn (stream : OutputStream) (lines : List (OutputStream × String)) : List String :=
  lines.filterMap fun line => if line.1 = stream then some line.2 else none

@[simp] theorem linesOn_nil (stream : OutputStream) : linesOn stream [] = [] := rfl

@[simp] theorem linesOn_append (stream : OutputStream) (xs ys : List (OutputStream × String)) :
    linesOn stream (xs ++ ys) = linesOn stream xs ++ linesOn stream ys := by
  simp [linesOn]

theorem linesOn_map (stream other : OutputStream) (texts : List String) :
    linesOn stream (texts.map fun text => (other, text)) =
      if other = stream then texts else [] := by
  by_cases same : other = stream
  · simp [linesOn, same, List.filterMap_map]
  · simp [linesOn, same, List.filterMap_map]

/-- What is put into the channel behind the last line. -/
def ending (s : Streaming) : List OutputItem :=
  match s.waiter, s.status with
  | .finished, some status => (Streaming.endItem? s.label status).toList
  | _, _ => []

/-- Those who wait for the program know how it has ended, and put that into the channel when the
readers are through. -/
def Informed (s : Streaming) : Prop :=
  match s.waiter with
  | .waiting => True
  | .joining status => s.status = some status
  | .finished => s.status.isSome = true ∧ ∀ stream, (s.pipe stream).finished = true

/-- The account of both outputs: these lines have been read of them, in this order, and stand in the
channel or have been taken out of it. -/
structure Account (label : String) (r : Reading) (lines : List (OutputStream × String))
    (seen : OutputStream → List UInt8) : Prop where
  label : r.streaming.label = label
  orderly : r.streaming.child.Orderly r.wrote (fun stream => !(r.streaming.pipe stream).closed)
    r.streaming.status.isNone
  text : ∀ stream, (r.streaming.pipe stream).closed = true → IsText (r.wrote stream)
  pipes : ∀ stream,
    (r.streaming.pipe stream).Account (r.wrote stream) (linesOn stream lines) (seen stream)
  items : r.taken ++ r.streaming.channel = lines.map (fun line => .ok line.2) ++ ending r.streaming
  informed : Informed r.streaming

/-- A program whose reading begins. -/
def start (label : String) (p : Process) : Reading := { streaming := .start label p }

variable {label : String} {p : Process} {r r' : Reading} {s : Streaming}
  {lines : List (OutputStream × String)} {seen : OutputStream → List UInt8} {stream : OutputStream}

theorem account_start (label : String)
    (orderly : p.Orderly (fun _ => []) (fun _ => true) true) :
    (start label p).Account label [] fun _ => [] := by
  refine ⟨rfl, ?_, ?_, ?_, rfl, trivial⟩
  · have live :
        (fun stream => !((start label p).streaming.pipe stream).closed) = fun _ => true := by
      funext stream
      cases stream <;> rfl
    rw [live]
    exact orderly
  · intro stream closed
    cases stream <;> cases closed
  · intro stream
    cases stream <;> exact Pipe.account_start

theorem Account.read_of_open (account : r.Account label lines seen)
    (unclosed : (!(r.streaming.pipe stream).closed) = true) :
    (r.streaming.pipe stream).finished = false ∧ (r.streaming.pipe stream).broken = false := by
  have unfinished : (r.streaming.pipe stream).finished = false := by
    by_contra finished
    obtain ⟨closed, -⟩ := (account.pipes stream).drained (by simpa using finished)
    simp [closed] at unclosed
  refine ⟨unfinished, ?_⟩
  by_contra broken
  have finished := (account.pipes stream).unbroken (by simpa using broken)
  cases unfinished.symm.trans finished

/-- What those who wait for the program know stays true where readers that are through stay so. -/
theorem Informed.congr {s' : Streaming} (informed : Informed s) (waiter : s'.waiter = s.waiter)
    (status : s'.status = s.status)
    (finished : ∀ stream, (s.pipe stream).finished = true → (s'.pipe stream).finished = true) :
    Informed s' := by
  unfold Informed at *
  rw [waiter, status]
  cases known : s.waiter with
  | waiting => trivial
  | joining status =>
    rw [known] at informed
    exact informed
  | finished =>
    rw [known] at informed
    exact ⟨informed.1, fun stream => finished stream (informed.2 stream)⟩

theorem ending_congr {s' : Streaming} (waiter : s'.waiter = s.waiter)
    (status : s'.status = s.status) (label : s'.label = s.label) : ending s' = ending s := by
  unfold ending
  rw [waiter, status, label]

/-- What the program does is taken into the account. -/
theorem Account.child (account : r.Account label lines seen)
    (moved : r.streaming.turn .child = some s) :
    Account label { r with
      streaming := s
      wrote := fun stream => r.wrote stream ++ r.streaming.child.writes stream } lines seen := by
  obtain ⟨beside, turn⟩ := Streaming.childTurn_cases moved
  have orderly := account.orderly
  have silent (quiet : ∀ stream, r.streaming.child.writes stream = []) :
      (fun stream => r.wrote stream ++ r.streaming.child.writes stream) = r.wrote := by
    funext stream
    simp [quiet]
  have items (same : ending s = ending r.streaming) :
      r.taken ++ s.channel = lines.map (fun line => .ok line.2) ++ ending s := by
    rw [beside.channel, same]
    exact account.items
  cases turn with
  | writes stream bytes rest child child' status pipes =>
    rw [child] at orderly
    cases orderly with
    | write unclosed goesOn =>
      obtain ⟨unfinished, unbroken⟩ := account.read_of_open unclosed
      have wrote : (fun other => r.wrote other ++ r.streaming.child.writes other) =
          Function.update r.wrote stream (r.wrote stream ++ bytes) := by
        funext other
        by_cases same : other = stream
        · subst same
          simp [child, Process.writes]
        · simp [child, Process.writes, same]
      have added := (account.pipes stream).add unfinished bytes
      have live (other : OutputStream) :
          (s.pipe other).closed = (r.streaming.pipe other).closed := by
        by_cases same : other = stream
        · subst same
          simp [pipes, Pipe.add, unfinished]
        · simp [pipes, same]
      rw [wrote]
      refine ⟨beside.label.trans account.label, ?_, fun other closed => ?_, fun other => ?_,
        items (ending_congr beside.waiter status beside.label), ?_⟩
      · simp only [live, child', status, unbroken]
        exact goesOn
      · rw [live] at closed
        by_cases same : other = stream
        · subst same
          simp [closed] at unclosed
        · simpa [same] using account.text other closed
      · by_cases same : other = stream
        · subst same
          simpa [pipes] using added
        · simpa [pipes, same] using account.pipes other
      · refine account.informed.congr beside.waiter status fun other finished => ?_
        by_cases same : other = stream
        · subst same
          cases unfinished.symm.trans finished
        · simpa [pipes, same] using finished
  | exits status rest child child' status' pipes =>
    rw [child] at orderly
    cases orderly with
    | exited unended goesOn =>
      -- Nobody has heard of the end yet.
      have waiting : r.streaming.waiter = .waiting := by
        have informed := account.informed
        unfold Informed at informed
        cases known : r.streaming.waiter with
        | waiting => rfl
        | joining status => simp_all
        | finished => simp_all
      rw [silent (by simp [child, Process.writes])]
      refine ⟨beside.label.trans account.label, ?_, ?_, ?_, items ?_, ?_⟩
      · simp only [pipes, child', status']
        exact goesOn
      · simp only [pipes]
        exact account.text
      · simp only [pipes]
        exact account.pipes
      · simp [ending, beside.waiter, waiting]
      · simp [Informed, beside.waiter, waiting]
  | closes stream rest child child' status pipes =>
    rw [child] at orderly
    cases orderly with
    | closed unclosed text goesOn =>
      rw [silent (by simp [child, Process.writes])]
      have live : (fun other => !(s.pipe other).closed) =
          Function.update (fun other => !(r.streaming.pipe other).closed) stream false := by
        funext other
        by_cases same : other = stream
        · subst same
          simp [pipes, Pipe.close]
        · simp [pipes, same]
      refine ⟨beside.label.trans account.label, ?_, fun other closed => ?_, fun other => ?_,
        items (ending_congr beside.waiter status beside.label), ?_⟩
      · dsimp only
        rw [live, child', status]
        exact goesOn
      · by_cases same : other = stream
        · subst same
          exact text
        · exact account.text other (by simpa [pipes, same] using closed)
      · by_cases same : other = stream
        · subst same
          simpa [pipes] using (account.pipes other).close
        · simpa [pipes, same] using account.pipes other
      · refine account.informed.congr beside.waiter status fun other finished => ?_
        by_cases same : other = stream
        · subst same
          simpa [pipes, Pipe.close] using finished
        · simpa [pipes, same] using finished

/-- What has been written to an output, with what is still to come, is text. -/
theorem Account.promise (account : r.Account label lines seen) (stream : OutputStream) :
    ∃ more, IsText (r.wrote stream ++ more) ∧
      ((r.streaming.pipe stream).closed = true → more = []) := by
  cases closed : (r.streaming.pipe stream).closed with
  | true => exact ⟨[], by simpa using account.text stream closed, fun _ => rfl⟩
  | false =>
    obtain ⟨more, text⟩ := account.orderly.promise stream (by simp [closed])
    exact ⟨more, text, by simp⟩

/-- A line that is read goes from its output into the channel. -/
theorem Account.reader (account : r.Account label lines seen)
    (moved : r.streaming.turn (.reader stream) = some s) :
    ∃ new seen', Account label { r with streaming := s } (lines ++ new) seen' := by
  obtain ⟨q, item, turn⟩ := Streaming.readerTurn_cases moved
  obtain ⟨unfinished, -⟩ := Pipe.reads_of_read turn.reads
  obtain ⟨closed, seen', new, read, pushed⟩ :=
    (account.pipes stream).read (account.promise stream) turn.reads
  -- As long as a reader is at work, nothing stands behind the lines.
  have unended : r.streaming.waiter ≠ .finished := by
    intro finished
    have informed := account.informed
    simp only [Informed, finished] at informed
    cases unfinished.symm.trans (informed.2 stream)
  have no_ending : ending r.streaming = [] := by
    unfold ending
    split
    next finished _ => exact absurd finished unended
    next => rfl
  have live (other : OutputStream) : (s.pipe other).closed = (r.streaming.pipe other).closed := by
    by_cases same : other = stream
    · subst same
      simp [turn.pipes, closed]
    · simp [turn.pipes, same]
  refine ⟨new.map fun text => (stream, text), Function.update seen stream seen',
    turn.label.trans account.label, ?_, fun other closed => ?_, fun other => ?_, ?_, ?_⟩
  · simp only [live, turn.child, turn.status]
    exact account.orderly
  · exact account.text other (by simpa [live] using closed)
  · rw [linesOn_append, linesOn_map]
    by_cases same : other = stream
    · subst same
      simpa [turn.pipes] using read
    · simpa [turn.pipes, same, Ne.symm same] using account.pipes other
  · have items := account.items
    rw [no_ending, List.append_nil] at items
    dsimp only
    rw [ending_congr turn.waiter turn.status turn.label, no_ending, turn.channel, pushed,
      ← List.append_assoc, items]
    simp [Function.comp_def]
  · refine account.informed.congr turn.waiter turn.status fun other finished => ?_
    by_cases same : other = stream
    · subst same
      cases unfinished.symm.trans finished
    · simpa [turn.pipes, same] using finished

/-- The ending goes into the channel behind all lines. -/
theorem Account.waiter (account : r.Account label lines seen)
    (moved : r.streaming.turn .waiter = some s) :
    Account label { r with streaming := s } lines seen := by
  have informed := account.informed
  have items := account.items
  cases Streaming.waiterTurn_cases moved with
  | joins status waiting known now =>
    subst now
    refine ⟨account.label, account.orderly, account.text, account.pipes, ?_, known⟩
    simpa [ending, waiting] using items
  | ends status joining finished now =>
    subst now
    have known : r.streaming.status = some status := by simpa [Informed, joining] using informed
    refine ⟨account.label, account.orderly, account.text, account.pipes, ?_, ?_⟩
    · rw [ending, joining, List.append_nil] at items
      simp [ending, Streaming.push, known, ← List.append_assoc, items]
    · exact ⟨by simp [Streaming.push, known], finished⟩

/-- What the program does besides writing does not matter. -/
theorem Account.goesOn {rest : Process} (account : r.Account label lines seen)
    (orderly : rest.Orderly r.wrote (fun stream => !(r.streaming.pipe stream).closed)
      r.streaming.status.isNone) :
    Account label { r with streaming := { r.streaming with child := rest } } lines seen :=
  ⟨account.label, orderly, account.text, account.pipes, account.items, account.informed⟩

theorem Account.lapse (account : r.Account label lines seen) :
    Account label { r with
      streaming := { r.streaming with
        out := r.streaming.out.lapse
        err := r.streaming.err.lapse } } lines seen := by
  have lapsed (stream : OutputStream) : ({ r.streaming with
      out := r.streaming.out.lapse
      err := r.streaming.err.lapse } : Streaming).pipe stream =
        (r.streaming.pipe stream).lapse := by
    cases stream <;> rfl
  refine ⟨account.label, ?_, ?_, ?_, account.items, ?_⟩
  · simp only [lapsed]
    exact account.orderly
  · simp only [lapsed]
    exact account.text
  · intro stream
    simp only [lapsed]
    exact (account.pipes stream).lapse
  · refine account.informed.congr rfl rfl fun stream finished => ?_
    rw [lapsed]
    exact finished

theorem Account.step (account : r.Account label lines seen) (step : Step r r') :
    ∃ lines' seen', r'.Account label lines' seen' := by
  have orderly := account.orderly
  cases step with
  | child moved => exact ⟨_, _, account.child moved⟩
  | reader stream moved =>
    obtain ⟨new, seen', account'⟩ := account.reader moved
    exact ⟨_, _, account'⟩
  | waiter moved => exact ⟨_, _, account.waiter moved⟩
  | @takes s item received =>
    unfold Streaming.receive at received
    split at received
    next => cases received
    next first rest channel =>
      obtain ⟨rfl, rfl⟩ := Prod.mk.inj (Option.some.inj received)
      have items := account.items
      rw [channel] at items
      refine ⟨lines, seen, account.label, account.orderly, account.text, account.pipes, ?_,
        account.informed⟩
      simpa [ending] using items
  | sleeps child =>
    rw [child] at orderly
    cases orderly with
    | sleep goesOn => exact ⟨_, _, (account.goesOn goesOn).lapse⟩
  | readsFiles child files =>
    rw [child] at orderly
    cases orderly with
    | readFiles goesOn => exact ⟨_, _, account.goesOn (goesOn files)⟩
  | writesFiles child =>
    rw [child] at orderly
    cases orderly with
    | writeFiles goesOn => exact ⟨_, _, account.goesOn goesOn⟩

theorem Account.steps {n : Nat} (account : r.Account label lines seen) (steps : r.Steps n r') :
    ∃ lines' seen', r'.Account label lines' seen' := by
  induction steps with
  | nothing => exact ⟨_, _, account⟩
  | step steps step ih =>
    obtain ⟨lines', seen', account'⟩ := ih
    exact account'.step step

/-- What the program goes on with after a step it might have gone on with before. -/
theorem Account.course_of_step {more : OutputStream → List UInt8} {status : Option ExitStatus}
    (account : r.Account label lines seen) (step : Step r r')
    (course : r'.streaming.child.Course more status) :
    ∃ more' status', r.streaming.child.Course more' status' ∧
      (∀ stream, r.wrote stream ++ more' stream = r'.wrote stream ++ more stream) ∧
      r.streaming.status.or status' = r'.streaming.status.or status := by
  have orderly := account.orderly
  cases step with
  | child moved =>
    obtain ⟨-, turn⟩ := Streaming.childTurn_cases moved
    cases turn with
    | writes stream bytes rest child child' same =>
      rw [child] at orderly ⊢
      cases orderly with
      | write unclosed =>
        obtain ⟨-, unbroken⟩ := account.read_of_open unclosed
        rw [child', unbroken] at course
        refine ⟨_, status, .write course, fun other => ?_, by rw [same]⟩
        by_cases here : other = stream
        · subst here
          simp [Process.writes]
        · simp [Process.writes, here]
    | exits code rest child child' same =>
      rw [child] at orderly ⊢
      cases orderly with
      | exited unended =>
        rw [child'] at course
        have unknown : r.streaming.status = none := by simpa using unended
        exact ⟨more, _, .exited course, by simp [Process.writes], by simp [unknown, same]⟩
    | closes stream rest child child' same =>
      rw [child]
      rw [child'] at course
      exact ⟨more, status, .closed course, by simp [Process.writes], by rw [same]⟩
  | reader stream moved =>
    obtain ⟨q, item, turn⟩ := Streaming.readerTurn_cases moved
    rw [turn.child] at course
    exact ⟨more, status, course, fun _ => rfl, by rw [turn.status]⟩
  | waiter moved =>
    cases Streaming.waiterTurn_cases moved with
    | joins code waiting known now | ends code joining finished now =>
      subst now
      exact ⟨more, status, course, fun _ => rfl, rfl⟩
  | takes received =>
    unfold Streaming.receive at received
    split at received
    next => cases received
    next first rest channel =>
      obtain ⟨rfl, rfl⟩ := Prod.mk.inj (Option.some.inj received)
      exact ⟨more, status, course, fun _ => rfl, rfl⟩
  | sleeps child =>
    rw [child]
    exact ⟨more, status, .sleep course, fun _ => rfl, rfl⟩
  | readsFiles child files =>
    rw [child]
    exact ⟨more, status, .readFiles files course, fun _ => rfl, rfl⟩
  | writesFiles child =>
    rw [child]
    exact ⟨more, status, .writeFiles course, fun _ => rfl, rfl⟩

/-- What has been written, with what is still to come, is a course of the program. -/
theorem Account.course_of_steps {n : Nat} {more : OutputStream → List UInt8}
    {status : Option ExitStatus} (account : r.Account label lines seen) (steps : r.Steps n r')
    (course : r'.streaming.child.Course more status) :
    ∃ more' status', r.streaming.child.Course more' status' ∧
      (∀ stream, r.wrote stream ++ more' stream = r'.wrote stream ++ more stream) ∧
      r.streaming.status.or status' = r'.streaming.status.or status := by
  induction steps generalizing more status with
  | nothing => exact ⟨more, status, course, fun _ => rfl, rfl⟩
  | step steps last ih =>
    obtain ⟨lines', seen', account'⟩ := account.steps steps
    obtain ⟨more₁, status₁, course₁, same₁, ended₁⟩ := account'.course_of_step last course
    obtain ⟨more₀, status₀, course₀, same₀, ended₀⟩ := ih course₁
    exact ⟨more₀, status₀, course₀, fun stream => (same₀ stream).trans (same₁ stream),
      ended₀.trans ended₁⟩

/-! ### No order gets stuck or goes on for ever -/

/-- As long as something may come, something can be done. -/
theorem Account.progress (account : r.Account label lines seen) (unended : ¬r.Ended) :
    ∃ r', Step r r' := by
  cases channel : r.streaming.channel with
  | cons item rest => exact ⟨_, .takes (by rw [Streaming.receive, channel])⟩
  | nil =>
    have orderly := account.orderly
    cases child : r.streaming.child with
    | write stream bytes rest =>
      exact ⟨_, .child (by rw [Streaming.turn, Streaming.childTurn, child])⟩
    | exited status rest => exact ⟨_, .child (by rw [Streaming.turn, Streaming.childTurn, child])⟩
    | closed stream rest => exact ⟨_, .child (by rw [Streaming.turn, Streaming.childTurn, child])⟩
    | sleep milliseconds rest => exact ⟨_, .sleeps child⟩
    | readFiles rest => exact ⟨_, .readsFiles child (.bare [])⟩
    | writeFiles files rest => exact ⟨_, .writesFiles child⟩
    | _ =>
      rw [child] at orderly
      cases orderly with
      | finished closed ended =>
        have space : ¬Streaming.room ≤ r.streaming.channel.length := by
          simp [channel, Streaming.room]
        by_cases through : ∀ stream, (r.streaming.pipe stream).finished = true
        · have informed := account.informed
          obtain ⟨status, known⟩ : ∃ status, r.streaming.status = some status :=
            Option.isSome_iff_exists.mp (by simpa using ended)
          cases waiter : r.streaming.waiter with
          | waiting =>
            exact ⟨_, .waiter (by rw [Streaming.turn, Streaming.waiterTurn, waiter, known])⟩
          | joining status =>
            have out : r.streaming.out.finished = true := through .stdout
            have err : r.streaming.err.finished = true := through .stderr
            cases turn : r.streaming.turn .waiter with
            | some s => exact ⟨_, .waiter turn⟩
            | none =>
              simp [Streaming.turn, Streaming.waiterTurn, waiter, out, err, space] at turn
          | finished => exact absurd ⟨through, waiter, channel⟩ unended
        · rw [not_forall] at through
          obtain ⟨stream, unfinished⟩ := through
          obtain ⟨next, reads⟩ := Pipe.exists_read (by simpa using unfinished)
            (by simpa using closed stream)
          cases turn : r.streaming.turn (.reader stream) with
          | some s => exact ⟨_, .reader stream turn⟩
          | none => simp [Streaming.turn, Streaming.readerTurn, space, reads] at turn

end Reading

/-- What a reader still has before it. -/
def Pipe.load (p : Pipe) : Nat := p.bytes.length + if p.finished then 0 else 1

theorem Pipe.Reads.load_lt {p q : Pipe} {item : Option OutputItem} (reads : p.Reads q item)
    (unfinished : p.finished = false) : q.load < p.load := by
  cases reads with
  | line single bytes =>
    simp only [load, bytes, unfinished, Bool.false_eq_true, if_false, List.length_append,
      List.length_singleton]
    split <;> omega
  | rest closed single some => simp [load, unfinished]
  | done closed empty => simp [load, unfinished]

/-- What those who wait for a program still have before them. -/
def Waiter.ahead : Waiter → Nat
  | waiting => 2
  | joining _ => 1
  | finished => 0

namespace Reading

variable {label : String} {p : Process} {r r' : Reading}
  {lines : List (OutputStream × String)} {seen : OutputStream → List UInt8}

/-- What is still to be done: first by the program, then by those who read it and wait for it, then
by whoever takes the items. -/
def ahead (r : Reading) : Process × Nat × Nat :=
  (r.streaming.child,
    (r.streaming.pipe .stdout).load + (r.streaming.pipe .stderr).load + r.streaming.waiter.ahead,
    r.streaming.channel.length)

theorem Step.ahead_lt (step : Step r r') :
    Prod.Lex Process.Next (Prod.Lex (· < ·) (· < ·)) r'.ahead r.ahead := by
  cases step with
  | child moved =>
    obtain ⟨-, turn⟩ := Streaming.childTurn_cases moved
    refine .left _ _ ?_
    cases turn with
    | writes stream bytes rest child child' =>
      dsimp only
      rw [child, child']
      exact .write _
    | exits status rest child child' =>
      dsimp only
      rw [child, child']
      exact .exited
    | closes stream rest child child' =>
      dsimp only
      rw [child, child']
      exact .closed
  | reader stream moved =>
    obtain ⟨q, item, turn⟩ := Streaming.readerTurn_cases moved
    obtain ⟨unfinished, reads⟩ := Pipe.reads_of_read turn.reads
    have less := reads.load_lt unfinished
    simp only [ahead, turn.child, turn.pipes, turn.waiter]
    refine .right _ (.left _ _ ?_)
    cases stream <;> simp <;> omega
  | waiter moved =>
    cases Streaming.waiterTurn_cases moved with
    | joins status waiting known now =>
      subst now
      refine .right _ (.left _ _ ?_)
      simp only [waiting, Waiter.ahead]
      exact Nat.add_lt_add_left (by decide) _
    | ends status joining finished now =>
      subst now
      refine .right _ (.left _ _ ?_)
      simp only [joining, Waiter.ahead]
      exact Nat.add_lt_add_left (by decide) _
  | takes received =>
    unfold Streaming.receive at received
    split at received
    next => cases received
    next first rest channel =>
      obtain ⟨rfl, rfl⟩ := Prod.mk.inj (Option.some.inj received)
      refine .right _ (.right _ ?_)
      simp [channel]
  | sleeps child =>
    refine .left _ _ ?_
    rw [child]
    exact .sleep
  | readsFiles child files =>
    refine .left _ _ ?_
    rw [child]
    exact .readFiles files
  | writesFiles child =>
    refine .left _ _ ?_
    rw [child]
    exact .writeFiles

/-- No order of turns goes on for ever. -/
theorem wellFounded_step : WellFounded fun r' r => Step r r' :=
  Subrelation.wf Step.ahead_lt
    (InvImage.wf ahead
      (Process.wellFounded_next.prod_lex (Nat.lt_wfRel.wf.prod_lex Nat.lt_wfRel.wf)))

/-! ### The end -/

/-- Where nothing more comes, nothing more is written or taken. -/
theorem Account.stays (account : r.Account label lines seen) (ended : r.Ended) (step : Step r r') :
    r'.Ended ∧ r'.taken = r.taken ∧ r'.wrote = r.wrote := by
  obtain ⟨finished, waiter, channel⟩ := ended
  have orderly := account.orderly
  have shut (stream : OutputStream) (unclosed : (!(r.streaming.pipe stream).closed) = true) :
      False := by
    cases (account.read_of_open unclosed).1.symm.trans (finished stream)
  cases step with
  | child moved =>
    obtain ⟨beside, turn⟩ := Streaming.childTurn_cases moved
    cases turn with
    | writes stream bytes rest child =>
      rw [child] at orderly
      cases orderly with
      | write unclosed => exact (shut stream unclosed).elim
    | exits status rest child child' status' pipes =>
      refine ⟨⟨?_, beside.waiter.trans waiter, beside.channel.trans channel⟩, rfl, ?_⟩
      · simpa only [pipes] using finished
      · funext stream
        simp [child, Process.writes]
    | closes stream rest child =>
      rw [child] at orderly
      cases orderly with
      | closed unclosed => exact (shut stream unclosed).elim
  | reader stream moved =>
    obtain ⟨q, item, turn⟩ := Streaming.readerTurn_cases moved
    cases (Pipe.reads_of_read turn.reads).1.symm.trans (finished stream)
  | waiter moved =>
    cases Streaming.waiterTurn_cases moved with
    | joins status waiting => cases waiting.symm.trans waiter
    | ends status joining => cases joining.symm.trans waiter
  | takes received =>
    rw [Streaming.receive, channel] at received
    cases received
  | sleeps child =>
    refine ⟨⟨fun stream => ?_, waiter, channel⟩, rfl, rfl⟩
    cases stream
    · exact finished .stdout
    · exact finished .stderr
  | readsFiles child files => exact ⟨⟨finished, waiter, channel⟩, rfl, rfl⟩
  | writesFiles child => exact ⟨⟨finished, waiter, channel⟩, rfl, rfl⟩

/-- Everything has arrived that a program has written in a course of its: the lines of both outputs,
those of each in their order, and behind them how the program has ended unless that is a success. -/
def Delivered (label : String) (p : Process) (r : Reading) : Prop :=
  ∃ lines status, p.Course r.wrote (some status) ∧
    (∀ stream, HasLines (r.wrote stream) (linesOn stream lines)) ∧
    (status.isSuccess = true → r.taken = lines.map fun line => .ok line.2) ∧
    (status.isSuccess = false → ∃ cause, Streaming.endItem? label status = some (.error cause) ∧
      r.taken = (lines.map fun line => .ok line.2) ++ [.error cause])

theorem endItem?_cases (label : String) (status : ExitStatus) :
    status.isSuccess = true ∧ Streaming.endItem? label status = none ∨
      status.isSuccess = false ∧
        ∃ cause, Streaming.endItem? label status = some (.error cause) := by
  cases status with
  | code n =>
    cases n with
    | zero => exact .inl ⟨rfl, rfl⟩
    | succ n => exact .inr ⟨by simp [ExitStatus.isSuccess], _, rfl⟩
  | signal number => exact .inr ⟨by simp [ExitStatus.isSuccess], _, rfl⟩

theorem Account.delivered {n : Nat} (account : r.Account label lines seen)
    (steps : (start label p).Steps n r) (orderly : p.Orderly (fun _ => []) (fun _ => true) true)
    (ended : r.Ended) : r.Delivered label p := by
  obtain ⟨finished, waiter, channel⟩ := ended
  have informed := account.informed
  simp only [Informed, waiter] at informed
  obtain ⟨status, known⟩ := Option.isSome_iff_exists.mp informed.1
  have items := account.items
  simp only [channel, List.append_nil, ending, waiter, known, account.label] at items
  refine ⟨lines, status, ?_, fun stream => ?_, ?_, ?_⟩
  · obtain ⟨more, later, course⟩ := r.streaming.child.exists_course
    have silent := account.orderly.silent course fun stream => by
      simp [((account.pipes stream).drained (finished stream)).1]
    obtain ⟨wrote, ends, whole, same, told⟩ :=
      (account_start label orderly).course_of_steps steps course
    have all : wrote = r.wrote := by
      funext stream
      simpa [start, silent] using same stream
    have known_end : ends = some status := by simpa [start, Streaming.start, known] using told
    rw [← all, ← known_end]
    exact whole
  · have pipe := account.pipes stream
    rw [pipe.all, (pipe.drained (finished stream)).2, List.append_nil]
    exact pipe.lines
  · intro success
    rcases endItem?_cases label status with ⟨-, silent⟩ | ⟨failure, -⟩
    · simpa [silent] using items
    · cases success.symm.trans failure
  · intro failure
    rcases endItem?_cases label status with ⟨success, -⟩ | ⟨-, cause, told⟩
    · cases success.symm.trans failure
    · exact ⟨cause, told, by simpa [told] using items⟩

/-! ### One of these orders -/

theorem Steps.cons {n : Nat} {r₁ r₂ : Reading} (step : Step r r₁) (steps : r₁.Steps n r₂) :
    r.Steps (n + 1) r₂ := by
  induction steps with
  | nothing => exact .step .nothing step
  | step steps last ih => exact .step ih last

theorem step_of_turn {a : Streaming.Actor} {s : Streaming} (moved : r.streaming.turn a = some s) :
    ∃ r', Step r r' ∧ r'.streaming = s ∧ r'.taken = r.taken := by
  cases a with
  | child => exact ⟨_, .child moved, rfl, rfl⟩
  | reader stream => exact ⟨_, .reader stream moved, rfl, rfl⟩
  | waiter => exact ⟨_, .waiter moved, rfl, rfl⟩

theorem turn_of_firstTurn {s s' : Streaming} {actors : List Streaming.Actor}
    (first : s.firstTurn actors = some s') : ∃ a, s.turn a = some s' := by
  induction actors with
  | nil => cases first
  | cons a rest ih =>
    rw [Streaming.firstTurn] at first
    cases turn : s.turn a with
    | some s₁ =>
      rw [turn] at first
      exact ⟨a, turn.trans first⟩
    | none =>
      rw [turn] at first
      exact ih first

theorem firstTurn_eq_none {s : Streaming} {actors : List Streaming.Actor}
    (none_first : s.firstTurn actors = none) : ∀ a ∈ actors, s.turn a = none := by
  induction actors with
  | nil => simp
  | cons a rest ih =>
    rw [Streaming.firstTurn] at none_first
    cases turn : s.turn a with
    | some s₁ =>
      rw [turn] at none_first
      cases none_first
    | none =>
      rw [turn] at none_first
      exact List.forall_mem_cons.mpr ⟨turn, ih none_first⟩

/-- The output of a program is what is taken in one of these orders, up to its end unless its turns
run out. -/
theorem Account.steps_of_output {fuel : Nat} {items : List OutputItem}
    (account : r.Account label lines seen)
    (yields : (Streaming.outputWithin fuel r.streaming).Yields items) :
    ∃ n r', r.Steps n r' ∧ r'.taken = r.taken ++ items ∧ (r'.Ended ∨ n = fuel) := by
  induction fuel generalizing r lines seen items with
  | zero =>
    cases yields
    exact ⟨0, r, .nothing, by simp, .inr rfl⟩
  | succ fuel ih =>
    have go {r₁ : Reading} {more : List OutputItem} (step : Step r r₁)
        (yields : (Streaming.outputWithin fuel r₁.streaming).Yields more) :
        ∃ n r', r.Steps n r' ∧ r'.taken = r₁.taken ++ more ∧ (r'.Ended ∨ n = fuel + 1) := by
      obtain ⟨lines', seen', account'⟩ := account.step step
      obtain ⟨n, r', steps, taken, done⟩ := ih account' yields
      exact ⟨n + 1, r', steps.cons step, taken, done.imp_right (congrArg (· + 1))⟩
    rw [Streaming.outputWithin] at yields
    split at yields
    next text s received =>
      cases yields with
      | line yields => simpa using go (.takes received) yields
    next cause s received =>
      cases yields with
      | failed yields => simpa using go (.takes received) yields
    next nothing =>
      have channel : r.streaming.channel = [] := by
        unfold Streaming.receive at nothing
        split at nothing
        · assumption
        · cases nothing
      split at yields
      next s first =>
        obtain ⟨a, moved⟩ := turn_of_firstTurn first
        obtain ⟨r₁, step, rfl, taken⟩ := step_of_turn moved
        simpa [taken] using go step yields
      next idle =>
        have still := firstTurn_eq_none idle
        split at yields
        next waiter =>
          cases yields
          have informed := account.informed
          simp only [Informed, waiter] at informed
          exact ⟨0, r, .nothing, by simp, .inl ⟨informed.2, waiter, channel⟩⟩
        next unwaiting =>
          split at yields
          next milliseconds rest child =>
            cases yields with
            | sleep yields =>
              have later := go (.sleeps child) yields
              exact later
          next rest child =>
            cases yields with
            | readFiles files yields =>
              have later := go (.readsFiles child files) yields
              exact later
          next files rest child =>
            cases yields with
            | writeFiles yields =>
              have later := go (.writesFiles child) yields
              exact later
          next no_sleep no_read no_write =>
            -- Somebody could do something, but nobody can.
            obtain ⟨r₁, step⟩ := account.progress fun ended => unwaiting ended.2.1
            have stuck (a : Streaming.Actor) {s : Streaming} (moved : r.streaming.turn a = some s)
                (mem : a ∈ [.reader .stdout, .reader .stderr, .waiter, .child]) : False := by
              cases (still a mem).symm.trans moved
            cases step with
            | child moved => exact (stuck .child moved (by simp)).elim
            | reader stream moved =>
              exact (stuck (.reader stream) moved (by cases stream <;> simp)).elim
            | waiter moved => exact (stuck .waiter moved (by simp)).elim
            | takes received => cases nothing.symm.trans received
            | sleeps child => exact absurd child (no_sleep _ _)
            | readsFiles child => exact absurd child (no_read _)
            | writesFiles child => exact absurd child (no_write _ _)

/-- Reading loses nothing. Whatever the order of turns, it neither gets stuck before its end nor
goes on for ever, at its end everything has arrived and nothing comes any more; and what comes out
of the output of a program comes up in one of these orders, up to the end unless its turns run
out. -/
theorem nothing_is_lost (label : String)
    (orderly : p.Orderly (fun _ => []) (fun _ => true) true) :
    (∀ n r, (start label p).Steps n r →
      (¬r.Ended → ∃ r', Step r r') ∧
      (r.Ended → r.Delivered label p ∧
        ∀ r', Step r r' → r'.Ended ∧ r'.taken = r.taken ∧ r'.wrote = r.wrote)) ∧
    (WellFounded fun r' r => Step r r') ∧
    ∀ items, (Streaming.output label p).Yields items →
      ∃ n r, (start label p).Steps n r ∧ r.taken = items ∧
        (r.Ended ∨ n = Streaming.patience) := by
  have begun := account_start label orderly
  refine ⟨fun n r steps => ?_, wellFounded_step, fun items yields => ?_⟩
  · obtain ⟨lines, seen, account⟩ := begun.steps steps
    exact ⟨account.progress, fun ended =>
      ⟨account.delivered steps orderly ended, fun r' => account.stays ended⟩⟩
  · simpa [start] using begun.steps_of_output yields

/-- Reading can always be brought to its end. -/
theorem exists_ended {n : Nat} (steps : (start label p).Steps n r)
    (goesOn : ∀ n r, (start label p).Steps n r → ¬r.Ended → ∃ r', Step r r') :
    ∃ m r', (start label p).Steps m r' ∧ r'.Ended := by
  induction r using wellFounded_step.induction generalizing n with
  | _ r ih =>
    by_cases ended : r.Ended
    · exact ⟨n, r, steps, ended⟩
    · obtain ⟨r', step⟩ := goesOn n r steps ended
      exact ih r' step (.step steps step)

/-- A program writes a line to each output, the second without its end, and fails in between. -/
def failing : Process :=
  .write .stdout [97, 13, 10] fun _ => .exited (.code 3) fun _ => .write .stderr [98] fun _ =>
    .closed .stdout fun _ => .closed .stderr fun _ => .over

theorem failing_is_read : failing.Orderly (fun _ => []) (fun _ => true) true ∧
    ∃ n r, (start "sh" failing).Steps n r ∧ r.Ended ∧
      ∃ lines, linesOn .stdout lines = ["a"] ∧ linesOn .stderr lines = ["b"] ∧
        r.taken = lines.map (fun line => .ok line.2) ++
          [.error (.because "sh exited with status 3")] := by
  have orderly : failing.Orderly (fun _ => []) (fun _ => true) true := by
    refine .write rfl (.exited rfl (.write rfl (.closed rfl ?_ (.closed rfl ?_ (.finished ?_ rfl)))))
    · exact List.forall_mem_singleton.mpr ⟨['a'], rfl⟩
    · exact List.forall_mem_singleton.mpr ⟨['b'], rfl⟩
    · intro stream
      cases stream <;> rfl
  obtain ⟨runs, -, -⟩ := nothing_is_lost "sh" orderly
  obtain ⟨n, r, steps, ended⟩ := exists_ended .nothing fun n r steps => (runs n r steps).1
  obtain ⟨⟨lines, status, course, texts, -, failure⟩, -⟩ := (runs n r steps).2 ended
  have single {bytes : List UInt8} {texts : List String} {text : String}
      (has : HasLines bytes texts) (line : HasLines bytes [text]) : texts = [text] := by
    obtain ⟨other, rfl, same⟩ := List.map_eq_singleton_iff.mp (has.symm.trans line)
    have same : other.toList = text.toList := by simpa using same
    rw [String.toList_inj.mp same]
  generalize r.wrote = wrote at course texts
  unfold failing at course
  cases course with
  | write course =>
    cases course with
    | exited course =>
      cases course with
      | write course =>
        cases course with
        | closed course =>
          cases course with
          | closed course =>
            cases course
            obtain ⟨cause, told, taken⟩ := failure rfl
            cases told
            exact ⟨orderly, n, r, steps, ended, lines, single (texts .stdout) rfl,
              single (texts .stderr) rfl, taken⟩

end Reading

end PipelineRunner.Host
