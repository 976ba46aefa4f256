import PipelineRunner.Proofs.WorkCourses

/-! Output that is copied into a log and collected. What is returned and what has been logged agree:
both are the lines before the first failure, without control characters, so that no line end within
a line passes for one between two of them. -/

namespace PipelineRunner

variable {place : Place} {workflow : Option String} {w w' : World}

/-! ### What stands in a stream -/

namespace OutputItem

variable {items : List OutputItem}

/-- The lines that come up before the first failure, without control characters. -/
def messages : List OutputItem → List String
  | .ok text :: rest => Text.stripControl text :: messages rest
  | _ => []

def firstFailure? : List OutputItem → Option Cause
  | [] => none
  | .ok _ :: rest => firstFailure? rest
  | .error cause :: _ => some cause

/-- The first failure, or the messages behind some others, joined by line ends. -/
def returned (before : List String) (items : List OutputItem) : Except Cause String :=
  match firstFailure? items with
  | some cause => .error cause
  | none => .ok (Text.join "\n" (before ++ messages items))

theorem newline_notMem {message : String} (mem : message ∈ messages items) :
    '\n' ∉ message.toList := by
  induction items with
  | nil => cases mem
  | cons item rest ih =>
    cases item with
    | ok text =>
      obtain rfl | mem := List.mem_cons.mp mem
      · exact Text.newline_notMem_stripControl text
      · exact ih mem
    | error cause => cases mem

theorem messages_ne_nil (some : items ≠ []) (sound : firstFailure? items = none) :
    messages items ≠ [] := by
  cases items with
  | nil => exact absurd rfl some
  | cons item rest =>
    cases item with
    | ok text => exact List.cons_ne_nil _ _
    | error cause => cases sound

/-- Line ends tell the messages of a stream apart, whatever has stood in its lines. -/
theorem splitAt_join_messages (some : items ≠ []) (sound : firstFailure? items = none) :
    Text.splitAt '\n' (Text.join "\n" (messages items)).toList =
      (messages items).map String.toList :=
  Text.splitAt_join (messages_ne_nil some sound) fun _ mem => newline_notMem mem

end OutputItem

open OutputItem

/-! ### What is logged -/

namespace World

variable {messages : List String} {message id : String}

/-- From one world to another, the log of this workflow gains these messages, and no other log gains
anything. -/
def Gains (workflow : Option String) (messages : List String) (w w' : World) : Prop :=
  ∀ id, w'.logs.entries id = w.logs.entries id ++
    if workflow = some id then messages.map fun message =>
      ⟨.ofMilliseconds w.clock, .info, message⟩
    else []

theorem Gains.still (same : w'.logs = w.logs) : w.Gains workflow [] w' := by
  intro id
  simp [same]

theorem Gains.cons (gains : (w.log place id .info message).Gains (some id) messages w') :
    w.Gains (some id) (message :: messages) w' := by
  intro other
  rw [gains other]
  by_cases mine : other = id
  · subst mine
    simp [World.log, note]
  · simp [World.log, note, LogBuffer.entries_add_of_ne mine, Ne.symm mine]

theorem Gains.of_none (gains : w.Gains none messages w') (others : List String) :
    w.Gains none others w' := by
  intro id
  simpa using gains id

end World

/-! ### Forwarding -/

namespace Output

variable {turns : List (World × World)} {result : Except Cause String} {before : List String}

/-- Forwarding that is under way. The messages so far are in hand, and each turn puts those of the
items that come up in it into the log. -/
theorem forwardAfter_agrees {output : Output} {taken : List String}
    (performed : World.Performs place (output.forwardAfter workflow taken) ((w, w') :: turns)
      result) :
    ∃ items, output.Yields items ∧ result = returned taken.reverse items ∧
      ∃ piece pieces, piece ++ pieces.flatten = messages items ∧ w.Gains workflow piece w' ∧
        List.Forall₂ (fun turn piece => turn.1.Gains workflow piece turn.2) turns pieces := by
  induction output generalizing taken w w' turns with
  | finished =>
    cases performed with
    | ends turn =>
      cases turn
      exact ⟨[], .finished, by simp [returned, firstFailure?, messages], [], [], rfl, .still rfl,
        .nil⟩
    | waits turn => cases turn
  | line text rest ih =>
    cases workflow with
    | none =>
      obtain ⟨items, yields, result_eq, piece, pieces, whole, gains, others⟩ :=
        ih () (performed.shift (by rfl))
      exact ⟨_, .line yields, by simp [result_eq, returned, firstFailure?, messages],
        Text.stripControl text :: piece, pieces, by rw [List.cons_append, whole, messages],
        gains.of_none _, others⟩
    | some id =>
      have later : World.Performs place
          ((rest ()).forwardAfter (some id) (Text.stripControl text :: taken))
          ((w.log place id .info (Text.stripControl text), w') :: turns) result :=
        performed.shift (by rfl)
      obtain ⟨items, yields, result_eq, piece, pieces, whole, gains, others⟩ := ih () later
      exact ⟨_, .line yields, by simp [result_eq, returned, firstFailure?, messages],
        Text.stripControl text :: piece, pieces, by rw [List.cons_append, whole, messages],
        gains.cons, others⟩
  | failed cause rest ih =>
    cases performed with
    | ends turn =>
      cases turn
      obtain ⟨items, yields⟩ := (rest ()).exists_yields
      exact ⟨_, .failed yields, rfl, [], [], rfl, .still rfl, .nil⟩
    | waits turn => cases turn
  | sleep milliseconds rest ih =>
    cases milliseconds with
    | zero =>
      obtain ⟨items, yields, result_eq, logged⟩ := ih () (performed.shift (by rfl))
      exact ⟨items, .sleep yields, result_eq, logged⟩
    | succ milliseconds =>
      cases performed with
      | ends turn => cases turn
      | waits turn later =>
        cases turn
        obtain ⟨w₁, w₂, more, rfl⟩ := later.exists_cons
        obtain ⟨items, yields, result_eq, piece, pieces, whole, gains, others⟩ := ih () later
        exact ⟨items, .sleep yields, result_eq, [], piece :: pieces, whole, .still rfl,
          .cons gains others⟩
  | readFiles rest ih =>
    obtain ⟨items, yields, result_eq, logged⟩ := ih _ (performed.shift (by rfl))
    exact ⟨items, .readFiles _ yields, result_eq, logged⟩
  | writeFiles files rest ih =>
    have later : World.Performs place ((rest ()).forwardAfter workflow taken)
        (({ w with files }, w') :: turns) result := performed.shift (by rfl)
    obtain ⟨items, yields, result_eq, logged⟩ := ih () later
    exact ⟨items, .writeFiles yields, result_eq, logged⟩

theorem forwardAfter_ends (workflow : Option String) (taken : List String) (output : Output) :
    (output.forwardAfter workflow taken).Ends fun _ _ => True := by
  induction output generalizing taken with
  | finished | failed => trivial
  | line text rest ih =>
    cases workflow with
    | none | some id => exact ih () (Text.stripControl text :: taken)
  | sleep milliseconds rest ih | writeFiles files rest ih => exact ih () taken
  | readFiles rest ih => exact fun files => ih files taken

/-- What forwarding returns and what it logs agree. In every order of its turns, whatever others do
in between, the log of the workflow gains the messages of the stream, which end at its first
failure; it is returned, or else the messages are, which the line ends between them tell apart.
Every forwarding comes to this end, and every stream is the output of something. -/
theorem forward_agrees (place : Place) (workflow : Option String) (output : Output) :
    (∀ turns result, World.Performs place (output.forward workflow) turns result →
      ∃ items, output.Yields items ∧
        (∃ pieces, pieces.flatten = messages items ∧
          List.Forall₂ (fun turn piece => turn.1.Gains workflow piece turn.2) turns pieces) ∧
        (∀ cause, firstFailure? items = some cause → result = .error cause) ∧
        (firstFailure? items = none → result = .ok (Text.join "\n" (messages items)) ∧
          (items ≠ [] → Text.splitAt '\n' (Text.join "\n" (messages items)).toList =
            (messages items).map String.toList))) ∧
      (∀ others w, ∃ w' turns result, World.Follow others (others w') turns ∧
        World.Performs place (output.forward workflow) ((w, w') :: turns) result) ∧
      ∀ stream items, (ofItems stream).Yields items ↔ items = stream := by
  refine ⟨fun turns result performed => ?_,
    World.exists_performs (forwardAfter_ends workflow [] output), fun _ _ => yields_ofItems⟩
  obtain ⟨w, w', more, rfl⟩ := performed.exists_cons
  obtain ⟨items, yields, rfl, piece, pieces, whole, gains, others⟩ := forwardAfter_agrees performed
  refine ⟨items, yields, ⟨piece :: pieces, whole, .cons gains others⟩, fun cause failed => ?_,
    fun sound => ⟨?_, fun some => splitAt_join_messages some sound⟩⟩
  · rw [List.reverse_nil, returned, failed]
  · rw [List.reverse_nil, returned, sound, List.nil_append]

/-- A line with a line end in it comes up, and another line a little later. -/
def twoLines : Output :=
  .line "a\x07\nb" fun _ => .sleep 5 fun _ => .line "c" fun _ => .finished

theorem twoLines_agree : ∃ turns,
    World.Performs {} (twoLines.forward (some "w")) turns (.ok "ab\nc") ∧
      (∃ pieces, pieces.flatten = ["ab", "c"] ∧ List.Forall₂
        (fun turn piece => turn.1.Gains (some "w") piece turn.2) turns pieces) ∧
      Text.splitAt '\n' "ab\nc".toList = ["ab".toList, "c".toList] := by
  have performed : World.Performs {} (twoLines.forward (some "w"))
      [({}, _), (({} : World).setTimer 5 |>.1, _)] (.ok "ab\nc") := .waits rfl (.ends rfl)
  obtain ⟨items, yields, logged, -, collected⟩ :=
    (forward_agrees {} (some "w") twoLines).1 _ _ performed
  obtain rfl : items = [.ok "a\x07\nb", .ok "c"] := by
    cases yields with
    | line later =>
      cases later with
      | sleep last =>
        cases last with
        | line done =>
          cases done with
          | finished => rfl
  exact ⟨_, performed, logged, (collected rfl).2 (List.cons_ne_nil _ _)⟩

end Output
end PipelineRunner
