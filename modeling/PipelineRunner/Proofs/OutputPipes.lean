import Mathlib.Logic.Function.Basic
import PipelineRunner.Host.Streaming

/-! Outputs on their way from a program to those who read it. Of each output there is an account:
what has been written is what has been read as lines and what is still on its way. It is kept by all
that the program and its reader do to the output, as long as the program behaves. -/

namespace PipelineRunner.Host

/-- These bytes are UTF-8 whose lines are these texts. -/
def HasLines (bytes : List UInt8) (texts : List String) : Prop :=
  (Text.linesOf 10 13 bytes).map Text.Utf8.decode = texts.map fun text => .ok text.toList

/-- Bytes whose lines are all UTF-8. -/
def IsText (bytes : List UInt8) : Prop :=
  ∀ line ∈ Text.linesOf 10 13 bytes, ∃ cs, Text.Utf8.decode line = .ok cs

/-- Bytes all of whose lines have ended. -/
def Whole (bytes : List UInt8) : Prop := bytes = [] ∨ ∃ body, bytes = body ++ [10]

section Lines

variable {read line bytes rest body taken : List UInt8} {texts : List String} {text : String}

theorem Whole.linesOf_append (whole : Whole read) (rest : List UInt8) :
    Text.linesOf 10 13 (read ++ rest) = Text.linesOf 10 13 read ++ Text.linesOf 10 13 rest := by
  rcases whole with rfl | ⟨body, rfl⟩
  · rfl
  · rw [Text.linesOf_ended, List.append_assoc]
    exact Text.linesOf_append 10 13 body rest

theorem IsText.of_append {more : List UInt8} (text : IsText (read ++ more)) (whole : Whole read) :
    IsText read ∧ IsText more := by
  unfold IsText at *
  rw [whole.linesOf_append, List.forall_mem_append] at text
  exact text

theorem IsText.exists_line (readable : IsText bytes) (single : Text.linesOf 10 13 bytes = [line]) :
    ∃ text, HasLines bytes [text] := by
  obtain ⟨cs, decoded⟩ := readable line (by simp [single])
  exact ⟨String.ofList cs, by simp [HasLines, single, decoded]⟩

theorem hasLines_nil : HasLines [] [] := rfl

theorem HasLines.append {more : List UInt8} {texts' : List String} (whole : Whole read)
    (h : HasLines read texts) (h' : HasLines more texts') :
    HasLines (read ++ more) (texts ++ texts') := by
  unfold HasLines at *
  rw [whole.linesOf_append, List.map_append, List.map_append, h, h']

namespace Pipe

theorem splitLineAfter_eq_some (h : splitLineAfter taken bytes = some (line, rest)) :
    ∃ body, 10 ∉ body ∧ line = taken.reverse ++ body ++ [10] ∧ bytes = body ++ 10 :: rest := by
  induction bytes generalizing taken with
  | nil => cases h
  | cons b bytes ih =>
    simp only [splitLineAfter] at h
    split at h
    next feed =>
      obtain ⟨rfl, rfl⟩ := Prod.mk.inj (Option.some.inj h)
      exact ⟨[], by simp, by simp [feed], by simp [feed]⟩
    next other =>
      obtain ⟨body, single, rfl, rfl⟩ := ih h
      refine ⟨b :: body, ?_, by simp, rfl⟩
      rw [List.mem_cons, not_or]
      exact ⟨Ne.symm other, single⟩

theorem splitLineAfter_eq_none (h : splitLineAfter taken bytes = none) : 10 ∉ bytes := by
  induction bytes generalizing taken with
  | nil => simp
  | cons b bytes ih =>
    simp only [splitLineAfter] at h
    split at h
    next => cases h
    next other =>
      rw [List.mem_cons, not_or]
      exact ⟨Ne.symm other, ih h⟩

/-- The first line with its end, and what stands behind it. -/
theorem splitLine_eq_some (h : splitLine bytes = some (line, rest)) :
    ∃ body, 10 ∉ body ∧ line = body ++ [10] ∧ bytes = line ++ rest := by
  obtain ⟨body, single, rfl, rfl⟩ := splitLineAfter_eq_some h
  exact ⟨body, single, by simp, by simp⟩

theorem splitLine_eq_none (h : splitLine bytes = none) : 10 ∉ bytes := splitLineAfter_eq_none h

/-- The item of a line that has ended is its only line. -/
theorem itemOf_ended (single : 10 ∉ body) (readable : HasLines (body ++ [10]) [text]) :
    itemOf (body ++ [10]) = .ok text := by
  rw [HasLines, Text.linesOf_ended, Text.splitAt_of_notMem single] at readable
  have decoded : Text.Utf8.decode (Text.dropOneLast 13 body) = .ok text.toList := by
    simpa using readable
  simp [itemOf, dropEnding, decoded]

/-- So is the item of a rest without a line end. -/
theorem itemOf_rest (single : 10 ∉ bytes) (some : bytes ≠ []) (readable : HasLines bytes [text]) :
    itemOf bytes = .ok text := by
  rw [HasLines, Text.linesOf_rest single some] at readable
  have decoded : Text.Utf8.decode bytes = .ok text.toList := by simpa using readable
  have unended : bytes.getLast? ≠ .some 10 := by
    intro last
    exact single (List.mem_of_getLast? last)
  simp [itemOf, dropEnding, unended, decoded]

end Pipe

end Lines

/-! ### What is read of an output -/

namespace Pipe

/-- What becomes of an output that is read: a line that has ended, the rest behind the last line
end, or the end. -/
inductive Reads (p : Pipe) : Pipe → Option OutputItem → Prop where
  | line {body rest : List UInt8} (single : 10 ∉ body) (bytes : p.bytes = body ++ [10] ++ rest) :
      Reads p { p with bytes := rest, finished := !isLine (itemOf (body ++ [10])) }
        (some (itemOf (body ++ [10])))
  | rest (closed : p.closed = true) (single : 10 ∉ p.bytes) (some : p.bytes ≠ []) :
      Reads p { p with bytes := [], finished := true } (.some (itemOf p.bytes))
  | done (closed : p.closed = true) (empty : p.bytes = []) :
      Reads p { p with finished := true } none

variable {p q : Pipe} {wrote seen bytes : List UInt8} {texts : List String}
  {item : Option OutputItem}

theorem reads_of_read (h : p.read = some (q, item)) : p.finished = false ∧ p.Reads q item := by
  unfold read at h
  split at h
  next => cases h
  next unfinished =>
    refine ⟨by simpa using unfinished, ?_⟩
    split at h
    next line rest first =>
      cases h
      obtain ⟨body, single, rfl, bytes⟩ := splitLine_eq_some first
      exact .line single bytes
    next none =>
      split at h
      next => cases h
      next closed =>
        have closed : p.closed = true := by simpa using closed
        split at h
        next empty =>
          cases h
          exact .done closed (List.isEmpty_iff.mp empty)
        next some =>
          cases h
          exact .rest closed (splitLine_eq_none none) (by simpa using some)

/-- A reader that is not through need not wait where the output has been closed. -/
theorem exists_read (unfinished : p.finished = false) (closed : p.closed = true) :
    ∃ next, p.read = some next := by
  simp only [read, unfinished, closed]
  split
  next => cases ‹false = true›
  next =>
    split
    next => exact ⟨_, rfl⟩
    next =>
      split
      next => cases ‹(!true) = true›
      next => split <;> exact ⟨_, rfl⟩

/-- The account of an output: so much of what has been written has been read, as these lines. -/
structure Account (p : Pipe) (wrote : List UInt8) (texts : List String) (seen : List UInt8) :
    Prop where
  all : wrote = seen ++ p.bytes
  lines : HasLines seen texts
  whole : p.finished = false → Whole seen
  drained : p.finished = true → p.closed = true ∧ p.bytes = []
  unbroken : p.broken = true → p.finished = true

theorem account_start : Account {} [] [] [] :=
  ⟨rfl, hasLines_nil, fun _ => .inl rfl, by simp, by simp⟩

theorem Account.add (account : p.Account wrote texts seen) (unfinished : p.finished = false)
    (bytes : List UInt8) : (p.add bytes).Account (wrote ++ bytes) texts seen := by
  have added : p.add bytes = { p with bytes := p.bytes ++ bytes } := by simp [Pipe.add, unfinished]
  rw [added]
  refine ⟨?_, account.lines, account.whole, ?_, account.unbroken⟩
  · rw [account.all, List.append_assoc]
  · intro finished
    cases unfinished.symm.trans finished

theorem Account.close (account : p.Account wrote texts seen) :
    p.close.Account wrote texts seen :=
  ⟨account.all, account.lines, account.whole, fun finished => ⟨rfl, (account.drained finished).2⟩,
    account.unbroken⟩

theorem Account.lapse (account : p.Account wrote texts seen) :
    p.lapse.Account wrote texts seen := by
  refine ⟨account.all, account.lines, account.whole, account.drained, fun broken => ?_⟩
  rcases (Bool.or_eq_true _ _).mp broken with earlier | finished
  · exact account.unbroken earlier
  · exact finished

/-- A reader of text reads a line of it, or finds the output at its end. -/
theorem Account.read (account : p.Account wrote texts seen)
    (promise : ∃ more, IsText (wrote ++ more) ∧ (p.closed = true → more = []))
    (reads : p.read = some (q, item)) :
    q.closed = p.closed ∧ ∃ seen' new, q.Account wrote (texts ++ new) seen' ∧
      item.toList = new.map .ok := by
  obtain ⟨more, text, complete⟩ := promise
  obtain ⟨unfinished, reads⟩ := reads_of_read reads
  have whole := account.whole unfinished
  have unbroken : p.broken = true → False := fun broken => by
    cases unfinished.symm.trans (account.unbroken broken)
  rw [account.all, List.append_assoc] at text
  have behind := (text.of_append whole).2
  cases reads with
  | @line body rest single bytes =>
    have ended : Whole (body ++ [10]) := .inr ⟨body, rfl⟩
    rw [bytes, List.append_assoc] at behind
    obtain ⟨text, readable⟩ := (behind.of_append ended).1.exists_line
      (by rw [Text.linesOf_ended, Text.splitAt_of_notMem single]; rfl)
    rw [itemOf_ended single readable]
    refine ⟨rfl, seen ++ (body ++ [10]), [text],
      ⟨?_, account.lines.append whole readable, ?_, ?_, ?_⟩, rfl⟩
    · rw [account.all, bytes]
      simp
    · exact fun _ => .inr ⟨seen ++ body, by simp⟩
    · simp [isLine]
    · exact fun broken => (unbroken broken).elim
  | rest closed single some =>
    obtain rfl := complete closed
    rw [List.append_nil] at behind
    obtain ⟨text, readable⟩ := behind.exists_line (Text.linesOf_rest single some)
    rw [itemOf_rest single some readable]
    exact ⟨rfl, wrote, [text], ⟨by simp, account.all ▸ account.lines.append whole readable, by simp,
      fun _ => ⟨closed, rfl⟩, fun _ => rfl⟩, rfl⟩
  | done closed empty =>
    refine ⟨rfl, seen, [], ⟨account.all, by simpa using account.lines, by simp,
      fun _ => ⟨closed, empty⟩, fun _ => rfl⟩, rfl⟩

end Pipe

/-! ### Programs -/

/-- A program that behaves: it writes to an output until that is closed, what it has written there
is text, and at its end both outputs have been closed and the program itself has ended, which it
does once. The order is left to it. What it does where nobody reads an output does not matter. -/
inductive Process.Orderly : (wrote : OutputStream → List UInt8) → (live : OutputStream → Bool) →
    (running : Bool) → Process → Prop where
  | finished {wrote : OutputStream → List UInt8} {live : OutputStream → Bool} {running : Bool}
      (closed : ∀ stream, live stream = false) (ended : running = false) :
      Orderly wrote live running .over
  | exited {wrote : OutputStream → List UInt8} {live : OutputStream → Bool} {running : Bool}
      {status : ExitStatus} {rest : Unit → Process} (unended : running = true)
      (goesOn : Orderly wrote live false (rest ())) :
      Orderly wrote live running (.exited status rest)
  | closed {wrote : OutputStream → List UInt8} {live : OutputStream → Bool} {running : Bool}
      {stream : OutputStream} {rest : Unit → Process} (unclosed : live stream = true)
      (text : IsText (wrote stream))
      (goesOn : Orderly wrote (Function.update live stream false) running (rest ())) :
      Orderly wrote live running (.closed stream rest)
  | write {wrote : OutputStream → List UInt8} {live : OutputStream → Bool} {running : Bool}
      {stream : OutputStream} {bytes : List UInt8} {rest : Bool → Process}
      (unclosed : live stream = true)
      (goesOn : Orderly (Function.update wrote stream (wrote stream ++ bytes)) live running
        (rest true)) : Orderly wrote live running (.write stream bytes rest)
  | sleep {wrote : OutputStream → List UInt8} {live : OutputStream → Bool} {running : Bool}
      {milliseconds : Nat} {rest : Unit → Process} (goesOn : Orderly wrote live running (rest ())) :
      Orderly wrote live running (.sleep milliseconds rest)
  | readFiles {wrote : OutputStream → List UInt8} {live : OutputStream → Bool} {running : Bool}
      {rest : FileTree → Process} (goesOn : ∀ files, Orderly wrote live running (rest files)) :
      Orderly wrote live running (.readFiles rest)
  | writeFiles {wrote : OutputStream → List UInt8} {live : OutputStream → Bool} {running : Bool}
      {files : FileTree} {rest : Unit → Process} (goesOn : Orderly wrote live running (rest ())) :
      Orderly wrote live running (.writeFiles files rest)

namespace Process

variable {wrote : OutputStream → List UInt8} {live : OutputStream → Bool} {running : Bool}
  {p : Process} {stream : OutputStream}

/-- What will have been written to an output that is still open is text. -/
theorem Orderly.promise (orderly : p.Orderly wrote live running) (stream : OutputStream)
    (unclosed : live stream = true) : ∃ more, IsText (wrote stream ++ more) := by
  induction orderly with
  | finished closed => cases unclosed.symm.trans (closed stream)
  | exited unended goesOn ih => exact ih unclosed
  | @closed _ _ _ other _ _ text goesOn ih =>
    by_cases same : stream = other
    · subst same
      exact ⟨[], by simpa using text⟩
    · exact ih (by simpa [same] using unclosed)
  | @write _ _ _ other bytes _ _ goesOn ih =>
    obtain ⟨more, text⟩ := ih unclosed
    by_cases same : stream = other
    · subst same
      exact ⟨bytes ++ more, by simpa using text⟩
    · exact ⟨more, by simpa [same] using text⟩
  | sleep goesOn ih | writeFiles goesOn ih => exact ih unclosed
  | readFiles goesOn ih => exact ih (.bare []) unclosed

/-- A course of a program that always finds its outputs read: what it writes, whatever files it
finds, and how it ends. -/
inductive Course : Process → (OutputStream → List UInt8) → Option ExitStatus → Prop where
  | finished : Course .over (fun _ => []) none
  | exited {status : ExitStatus} {rest : Unit → Process} {wrote : OutputStream → List UInt8}
      {later : Option ExitStatus} (goesOn : Course (rest ()) wrote later) :
      Course (.exited status rest) wrote (some status)
  | closed {stream : OutputStream} {rest : Unit → Process} {wrote : OutputStream → List UInt8}
      {status : Option ExitStatus} (goesOn : Course (rest ()) wrote status) :
      Course (.closed stream rest) wrote status
  | write {stream : OutputStream} {bytes : List UInt8} {rest : Bool → Process}
      {wrote : OutputStream → List UInt8} {status : Option ExitStatus}
      (goesOn : Course (rest true) wrote status) :
      Course (.write stream bytes rest) (Function.update wrote stream (bytes ++ wrote stream))
        status
  | sleep {milliseconds : Nat} {rest : Unit → Process} {wrote : OutputStream → List UInt8}
      {status : Option ExitStatus} (goesOn : Course (rest ()) wrote status) :
      Course (.sleep milliseconds rest) wrote status
  | readFiles {rest : FileTree → Process} {wrote : OutputStream → List UInt8}
      {status : Option ExitStatus} (files : FileTree) (goesOn : Course (rest files) wrote status) :
      Course (.readFiles rest) wrote status
  | writeFiles {files : FileTree} {rest : Unit → Process} {wrote : OutputStream → List UInt8}
      {status : Option ExitStatus} (goesOn : Course (rest ()) wrote status) :
      Course (.writeFiles files rest) wrote status

theorem exists_course (p : Process) : ∃ wrote status, p.Course wrote status := by
  induction p with
  | exited status rest ih =>
    obtain ⟨wrote, later, course⟩ := ih ()
    exact ⟨_, _, .exited course⟩
  | closed stream rest ih =>
    obtain ⟨wrote, status, course⟩ := ih ()
    exact ⟨_, _, .closed course⟩
  | write stream bytes rest ih =>
    obtain ⟨wrote, status, course⟩ := ih true
    exact ⟨_, _, .write course⟩
  | sleep milliseconds rest ih =>
    obtain ⟨wrote, status, course⟩ := ih ()
    exact ⟨_, _, .sleep course⟩
  | readFiles rest ih =>
    obtain ⟨wrote, status, course⟩ := ih (.bare [])
    exact ⟨_, _, .readFiles _ course⟩
  | writeFiles files rest ih =>
    obtain ⟨wrote, status, course⟩ := ih ()
    exact ⟨_, _, .writeFiles course⟩
  | _ => exact ⟨_, _, .finished⟩

/-- What has been closed is not written to. -/
theorem Orderly.silent {more : OutputStream → List UInt8} {status : Option ExitStatus}
    (orderly : p.Orderly wrote live running) (course : p.Course more status)
    (shut : ∀ stream, live stream = false) : more = fun _ => [] := by
  induction orderly generalizing more status with
  | finished =>
    cases course
    rfl
  | exited unended goesOn ih =>
    cases course with
    | exited course => exact ih course shut
  | closed unclosed => cases unclosed.symm.trans (shut _)
  | write unclosed => cases unclosed.symm.trans (shut _)
  | sleep goesOn ih =>
    cases course with
    | sleep course => exact ih course shut
  | readFiles goesOn ih =>
    cases course with
    | readFiles files course => exact ih files course shut
  | writeFiles goesOn ih =>
    cases course with
    | writeFiles course => exact ih course shut

/-- What a program does next, and is left with. -/
inductive Next : Process → Process → Prop where
  | exited {status : ExitStatus} {rest : Unit → Process} : Next (rest ()) (.exited status rest)
  | closed {stream : OutputStream} {rest : Unit → Process} : Next (rest ()) (.closed stream rest)
  | write {stream : OutputStream} {bytes : List UInt8} {rest : Bool → Process} (told : Bool) :
      Next (rest told) (.write stream bytes rest)
  | sleep {milliseconds : Nat} {rest : Unit → Process} : Next (rest ()) (.sleep milliseconds rest)
  | readFiles {rest : FileTree → Process} (files : FileTree) : Next (rest files) (.readFiles rest)
  | writeFiles {files : FileTree} {rest : Unit → Process} :
      Next (rest ()) (.writeFiles files rest)

/-- No program goes on for ever. -/
theorem wellFounded_next : WellFounded Next := by
  refine ⟨fun p => ?_⟩
  induction p with
  | exited status rest ih | closed stream rest ih | sleep milliseconds rest ih
  | writeFiles files rest ih =>
    refine .intro _ ?_
    rintro _ ⟨⟩
    exact ih ()
  | write stream bytes rest ih | readFiles rest ih =>
    refine .intro _ ?_
    rintro _ ⟨⟩
    exact ih _
  | _ => exact .intro _ nofun

/-- What a program writes next. -/
def writes : Process → OutputStream → List UInt8
  | .write stream bytes _, other => if other = stream then bytes else []
  | _, _ => []

end Process

end PipelineRunner.Host
