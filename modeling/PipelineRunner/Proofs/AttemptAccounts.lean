import PipelineRunner.Engine.Solo

/-! The attempts of a single step. What calls do, and when the step is cancelled or its plugin is
taken away, tells each attempt and whether another one follows; the account of a step is told
without reference to turns, timers or steps of a clockwork. -/

namespace PipelineRunner

/-- What a call does: it takes so many milliseconds, and then it answers. -/
structure Conduct where
  time : Nat
  answer : Except Cause (Option String)

/-- The calls of a method follow a sequence; a counter tells the plugin where it stands. -/
def Plugin.Follows (p : Plugin) (method : String) (params : StepParams) (counter : String)
    (calls : Nat → Conduct) : Prop :=
  p.invoke method params =
    .count counter fun n => .sleep (calls n).time fun _ => .done (calls n).answer

namespace SoloStep

/-- What can be done from outside while a step runs. -/
inductive Deed where
  | cancel (token : Nat)
  | unregister (name : String)

def Deed.perform : Deed → SoloStep → SoloStep
  | .cancel token => SoloStep.cancel token
  | .unregister name => SoloStep.unregister name

/-- Deeds, each so long after the one before, as they are done to a step. -/
def performed (deeds : List (Nat × Deed)) : List (Nat × (SoloStep → SoloStep)) :=
  deeds.map fun (wait, deed) => (wait, deed.perform)

/-- The instant of the first deed of a kind. -/
def firstAt (kind : Deed → Bool) (now : Nat) : List (Nat × Deed) → Option Nat
  | [] => none
  | (wait, deed) :: rest =>
    if kind deed then some (now + wait) else firstAt kind (now + wait) rest

/-- Whether a deed cancels the token of the step: it is cancelled with every token above it. -/
def cancels (s : SoloStep) : Deed → Bool
  | .cancel token => (s.tokens.nodes.lineage (s.tokens.node s.token)).contains (s.tokens.node token)
  | .unregister _ => false

/-- Whether a deed takes a plugin away. -/
def removes (plugin : String) : Deed → Bool
  | .cancel _ => false
  | .unregister name => name == plugin

end SoloStep

/-! ### Accounts -/

/-- How an attempt ends. -/
inductive Ending where
  | answered (answer : Except Cause (Option String))
  | timedOut
  /-- Nobody waits for the answer any more, as the step is cancelled. -/
  | interrupted
  /-- No call is made. -/
  | refused (e : RegistryError)

/-- An attempt, with the instants at which it begins and ends. -/
structure Attempt where
  began : Nat
  ended : Nat
  ending : Ending

/-- All that the course of a step depends on. -/
structure Terms where
  policy : RetryPolicy
  command : String
  params : StepParams
  binding : Binding
  /-- Whether the plugin belongs to the runner. -/
  builtin : Bool
  /-- What the first call does, the second one, and so on. -/
  calls : Nat → Conduct
  /-- Whether a cancelled step does not even wait for the call in flight. -/
  interrupt : Bool
  start : Nat
  /-- Whether the step is cancelled before it begins. -/
  already : Bool
  /-- When the step is cancelled from outside; what is due at that instant comes first. -/
  cancelled : Option Nat
  /-- When the plugin is taken away. -/
  removed : Option Nat

/-- Whether another attempt may be worth while. -/
def Ending.isRetryable : Ending → Bool
  | answered (.error _) => true
  | timedOut => true
  | _ => false

namespace Terms

variable (t : Terms)

/-- How long an attempt may take. -/
def limit : Nat := min t.policy.attemptTimeout.millisecondsUp longestWait

/-- The pause behind the `k`-th attempt. -/
def pause (k : Nat) : Nat := min (t.policy.backoff k).millisecondsUp longestWait

/-- Whether the step is cancelled before anything that happens at an instant. -/
def cancelledBy (b : Nat) : Bool := t.already || t.cancelled.any (· < b)

/-- Whether the plugin has been taken away before anything that happens at an instant. -/
def removedBy (b : Nat) : Bool := t.removed.any (· < b)

/-- When the `k`-th call, made at `b`, would answer. -/
def finish (k b : Nat) : Nat := b + min (t.calls k).time longestWait

/-- The `k`-th attempt if it begins at `b`. Of what ends it, the earliest counts; a call that
answers just when its time is up, or when the step is cancelled, has answered. -/
def attempt (k b : Nat) : Attempt :=
  if t.removedBy b then ⟨b, b, .refused (.unknownPlugin t.binding.plugin)⟩
  else
    let cut := if t.interrupt then t.cancelled else none
    match cut.filter fun c => c < t.finish k b && c < b + t.limit with
    | some c => ⟨b, c, .interrupted⟩
    | none =>
      if t.finish k b ≤ b + t.limit then ⟨b, t.finish k b, .answered (t.calls k).answer⟩
      else ⟨b, b + t.limit, .timedOut⟩

/-- What a step comes to with its `k`-th attempt, if no other one follows. -/
def resultOf (k : Nat) : Ending → StepResult
  | .answered (.ok output) => .ok output
  | .answered (.error cause) =>
    .error (.failed t.command k
      (RegistryError.invocation t.binding.plugin t.binding.method cause).message)
  | .timedOut => .error (.timedOut t.command k t.policy.attemptTimeout)
  | .interrupted => .error .cancelled
  | .refused e => .error (.rejected t.command e.message)

/-- What is noted of a call. -/
def called : Event := .called t.binding.plugin t.binding.method t.params t.builtin

/-- The record of a call that is made at an instant. -/
def calledAt (b : Nat) : Record := ⟨b, {}, t.called⟩

/-- What is noted of an attempt. -/
def records (a : Attempt) : List Record :=
  match a.ending with
  | .answered answer => [t.calledAt a.began, ⟨a.ended, {}, .answered answer⟩]
  | .timedOut | .interrupted => [t.calledAt a.began, ⟨a.ended, {}, .abandoned⟩]
  | .refused _ => []

/-- The account of a step: its attempts, its result, and the instant at which it has it. -/
structure Account (attempts : List Attempt) (result : StepResult) (ended : Nat) : Prop where
  /-- The first attempt begins at once, unless the step is cancelled already. -/
  first : attempts[0]? = if t.cancelledBy t.start then none else some (t.attempt 1 t.start)
  /-- Another attempt follows, after the pause, exactly if the one before has failed in a way that
  may mend, there may be another one, and the step is not cancelled by then. -/
  next : ∀ i a, attempts[i]? = some a → attempts[i + 1]? =
    let b := a.ended + t.pause (i + 1)
    if a.ending.isRetryable && i + 1 < t.policy.maxAttempts && !t.cancelledBy b then
      some (t.attempt (i + 2) b)
    else none
  /-- The step comes to what its last attempt comes to, unless only a cancellation has prevented
  another one. -/
  outcome : match attempts.getLast? with
    | none => result = .error .cancelled ∧ ended = t.start
    | some a =>
      if a.ending.isRetryable && attempts.length < t.policy.maxAttempts then
        result = .error .cancelled ∧ ∃ c, t.cancelled = some c ∧ ended = max a.ended c
      else result = t.resultOf attempts.length a.ending ∧ ended = a.ended

/-- Attempts behind each of which another one may follow, and the instant at which the next one
would begin. -/
structure Linked (past : List Attempt) (b : Nat) : Prop where
  first : past[0]? = none ∧ b = t.start ∨
    past[0]? = some (t.attempt 1 t.start) ∧ t.cancelledBy t.start = false
  next : ∀ i a, past[i]? = some a → a.ending.isRetryable = true ∧ i + 1 < t.policy.maxAttempts ∧
    (past[i + 1]? = none ∧ b = a.ended + t.pause (i + 1) ∨
      past[i + 1]? = some (t.attempt (i + 2) (a.ended + t.pause (i + 1))) ∧
        t.cancelledBy (a.ended + t.pause (i + 1)) = false)

variable {t} {past : List Attempt} {b : Nat}

theorem cancelledBy_mono {c : Nat} (le : b ≤ c) (h : t.cancelledBy b = true) :
    t.cancelledBy c = true := by
  simp only [cancelledBy, Bool.or_eq_true, Option.any_eq_true, decide_eq_true_eq] at h ⊢
  rcases h with already | ⟨i, at_i, lt⟩
  · exact .inl already
  · exact .inr ⟨i, at_i, by omega⟩

theorem removedBy_mono {c : Nat} (le : b ≤ c) (h : t.removedBy b = true) :
    t.removedBy c = true := by
  simp only [removedBy, Option.any_eq_true, decide_eq_true_eq] at h ⊢
  obtain ⟨i, at_i, lt⟩ := h
  exact ⟨i, at_i, by omega⟩

/-- A step that has begun an attempt is not cancelled before it began. -/
theorem already_of_not_cancelledBy (allowed : t.cancelledBy b = false) : t.already = false := by
  simp only [cancelledBy, Bool.or_eq_false_iff] at allowed
  exact allowed.1

theorem le_of_not_cancelledBy {c : Nat} (allowed : t.cancelledBy b = false)
    (at_c : t.cancelled = some c) : b ≤ c := by
  simp only [cancelledBy, at_c, Option.any_some, Bool.or_eq_false_iff, decide_eq_false_iff_not,
    Nat.not_lt] at allowed
  exact allowed.2

theorem linked_start : t.Linked [] t.start :=
  ⟨.inl ⟨rfl, rfl⟩, fun i a h => by simp at h⟩

theorem Linked.eq_start (linked : t.Linked [] b) : b = t.start := by
  rcases linked.first with ⟨-, start⟩ | ⟨first, -⟩
  · exact start
  · simp at first

/-- There is always room for the next attempt. -/
theorem Linked.length_lt (linked : t.Linked past b) :
    past.length < max 1 t.policy.maxAttempts := by
  by_cases none : past = []
  · simp only [none, List.length_nil]
    omega
  · have some : 0 < past.length := List.length_pos_iff.mpr none
    have := (linked.next (past.length - 1) _ (List.getElem?_eq_getElem (by omega))).2.1
    omega

/-- With the next attempt, the attempts before it are linked as before. -/
theorem Linked.concat (linked : t.Linked past b) (allowed : t.cancelledBy b = false)
    (a : Attempt) (is : a = t.attempt (past.length + 1) b) :
    (past ++ [a])[0]? = some (t.attempt 1 t.start) ∧ t.cancelledBy t.start = false ∧
    ∀ i a', past[i]? = some a' → a'.ending.isRetryable = true ∧ i + 1 < t.policy.maxAttempts ∧
      (past ++ [a])[i + 1]? = some (t.attempt (i + 2) (a'.ended + t.pause (i + 1))) ∧
        t.cancelledBy (a'.ended + t.pause (i + 1)) = false := by
  subst is
  rw [and_left_comm, ← and_assoc]
  refine ⟨?_, fun i a' at_i => ?_⟩
  · rcases linked.first with ⟨none, rfl⟩ | ⟨first, free⟩
    · obtain rfl : past = [] := by simpa using none
      exact ⟨allowed, rfl⟩
    · refine ⟨free, ?_⟩
      rw [List.getElem?_append_left (by grind)]
      exact first
  · obtain ⟨failed, more, ⟨last, rfl⟩ | ⟨follows, free⟩⟩ := linked.next i a' at_i
    · have inside : i < past.length := by grind
      have len : past.length = i + 1 := by grind
      exact ⟨failed, more, by rw [← len, List.getElem?_concat_length, len], allowed⟩
    · exact ⟨failed, more, by rw [List.getElem?_append_left (by grind)]; exact follows, free⟩

theorem Linked.append (linked : t.Linked past b) (allowed : t.cancelledBy b = false)
    (failed : (t.attempt (past.length + 1) b).ending.isRetryable = true)
    (more : past.length + 1 < t.policy.maxAttempts) :
    t.Linked (past ++ [t.attempt (past.length + 1) b])
      ((t.attempt (past.length + 1) b).ended + t.pause (past.length + 1)) := by
  obtain ⟨first, free, next⟩ := linked.concat allowed _ rfl
  refine ⟨.inr ⟨first, free⟩, fun i a at_i => ?_⟩
  by_cases inside : i < past.length
  · rw [List.getElem?_append_left inside] at at_i
    obtain ⟨failed, more, follows⟩ := next i a at_i
    exact ⟨failed, more, .inr follows⟩
  · obtain rfl : i = past.length := by grind
    obtain rfl : t.attempt (past.length + 1) b = a := by simpa using at_i
    exact ⟨failed, more, .inl ⟨by simp, rfl⟩⟩

/-- The account of a step whose last attempt ends it. -/
theorem Linked.account (linked : t.Linked past b) (allowed : t.cancelledBy b = false)
    {a : Attempt} (is : t.attempt (past.length + 1) b = a)
    (last : a.ending.isRetryable = true → t.policy.maxAttempts ≤ past.length + 1) :
    t.Account (past ++ [a]) (t.resultOf (past.length + 1) a.ending) a.ended := by
  obtain ⟨first, free, next⟩ := linked.concat allowed a is.symm
  refine ⟨by rw [first, free]; rfl, fun i a' at_i => ?_, ?_⟩
  · by_cases inside : i < past.length
    · rw [List.getElem?_append_left inside] at at_i
      obtain ⟨failed, more, follows, free⟩ := next i a' at_i
      simp [follows, failed, more, free]
    · obtain rfl : i = past.length := by grind
      obtain rfl : a = a' := by simpa using at_i
      have done : (a.ending.isRetryable && decide (past.length + 1 < t.policy.maxAttempts)) =
          false := by
        cases failed : a.ending.isRetryable <;> simp [failed] at last ⊢
        exact last
      simp [done]
  · have done : ¬ ((a.ending.isRetryable && decide ((past ++ [a]).length < t.policy.maxAttempts)) =
        true) := by
      simpa using last
    rw [List.getLast?_concat]
    simp only [if_neg done]
    simp

/-- The account of a step that is cancelled before its next attempt. -/
theorem Linked.account_of_cancelled (linked : t.Linked past b) (cancelled : t.cancelledBy b = true)
    {ended : Nat} (at_start : past = [] → ended = t.start)
    (behind : ∀ a, past.getLast? = some a → ∃ c, t.cancelled = some c ∧ ended = max a.ended c) :
    t.Account past (.error .cancelled) ended := by
  refine ⟨?_, fun i a at_i => ?_, ?_⟩
  · rcases linked.first with ⟨none, rfl⟩ | ⟨first, free⟩
    · rw [none, if_pos cancelled]
    · simp [first, free]
  · obtain ⟨failed, more, ⟨last, rfl⟩ | ⟨follows, free⟩⟩ := linked.next i a at_i
    · simp [last, cancelled]
    · simp [follows, failed, more, free]
  · cases last : past.getLast? with
    | none => exact ⟨rfl, at_start (by simpa using last)⟩
    | some a =>
      have at_end : past[past.length - 1]? = some a := by rw [← List.getLast?_eq_getElem?, last]
      have some : 0 < past.length := by grind
      obtain ⟨failed, more, -⟩ := linked.next _ a at_end
      have more : past.length < t.policy.maxAttempts := by omega
      simp only [failed, more, decide_true, Bool.and_self, if_true, true_and]
      exact behind a last

variable {k : Nat}

theorem attempt_of_removed (removed : t.removedBy b = true) :
    t.attempt k b = ⟨b, b, .refused (.unknownPlugin t.binding.plugin)⟩ := by
  rw [attempt, if_pos removed]

theorem attempt_of_interrupted {c : Nat} (served : t.removedBy b = false)
    (interrupt : t.interrupt = true) (cancelled : t.cancelled = some c) (early : c < t.finish k b)
    (inTime : c < b + t.limit) : t.attempt k b = ⟨b, c, .interrupted⟩ := by
  simp [attempt, served, interrupt, cancelled, Option.filter, early, inTime]

/-- A call is waited for until it answers or its time is up, if the step is not cancelled before. -/
theorem attempt_of_waited (served : t.removedBy b = false) (waited : t.interrupt = true →
      ∀ c, t.cancelled = some c → min (t.finish k b) (b + t.limit) ≤ c) :
    t.attempt k b =
      if t.finish k b ≤ b + t.limit then ⟨b, t.finish k b, .answered (t.calls k).answer⟩
      else ⟨b, b + t.limit, .timedOut⟩ := by
  have uncut : (if t.interrupt then t.cancelled else none).filter
      (fun c => decide (c < t.finish k b) && decide (c < b + t.limit)) = none := by
    cases interrupt : t.interrupt with
    | false => rfl
    | true =>
      rw [Option.filter_eq_none_iff]
      intro c cancelled
      have := waited interrupt c (by simpa using cancelled)
      simp
      omega
  simp only [attempt, served, uncut]
  rfl

/-- An attempt ends in time, and not before it begins. -/
theorem attempt_ended (allowed : t.cancelledBy b = false) :
    b ≤ (t.attempt k b).ended ∧ (t.attempt k b).ended ≤ b + t.limit := by
  have later (c : Nat) (cancelled : t.cancelled = some c) : b ≤ c := by
    simp [cancelledBy, cancelled] at allowed
    exact allowed.2
  simp only [attempt]
  split
  · exact ⟨Nat.le_refl _, Nat.le_add_right ..⟩
  · split
    · next c cut =>
      rw [Option.filter_eq_some_iff] at cut
      simp only [Bool.and_eq_true, decide_eq_true_eq] at cut
      refine ⟨later c ?_, by show c ≤ _; omega⟩
      have := cut.1
      split at this <;> simp_all
    · split
      · exact ⟨Nat.le_add_right .., ‹_›⟩
      · exact ⟨Nat.le_add_right .., Nat.le_refl _⟩

theorem began_attempt : (t.attempt k b).began = b := by
  simp only [attempt]
  split
  · rfl
  · split
    · rfl
    · split <;> rfl

variable {attempts : List Attempt} {result : StepResult} {ended : Nat}

/-- The attempts of an account are those that the terms tell. -/
theorem Account.attempt_eq (account : t.Account attempts result ended) {i : Nat} {a : Attempt}
    (at_i : attempts[i]? = some a) :
    ∃ b, a = t.attempt (i + 1) b ∧ t.cancelledBy b = false := by
  cases i with
  | zero =>
    rw [account.first] at at_i
    split at at_i
    · cases at_i
    · next free =>
      exact ⟨_, (Option.some.inj at_i).symm, by simpa using free⟩
  | succ i =>
    obtain ⟨before, at_before⟩ : ∃ before, attempts[i]? = some before :=
      ⟨_, List.getElem?_eq_getElem (by grind)⟩
    rw [account.next i before at_before] at at_i
    dsimp only at at_i
    split at at_i
    · next goesOn =>
      simp only [Bool.and_eq_true, Bool.not_eq_true'] at goesOn
      exact ⟨_, (Option.some.inj at_i).symm, goesOn.2⟩
    · cases at_i

theorem Account.ended_le (account : t.Account attempts result ended) {a : Attempt}
    (mem : a ∈ attempts) : a.ended ≤ a.began + t.limit := by
  obtain ⟨i, at_i⟩ := List.mem_iff_getElem?.mp mem
  obtain ⟨b, rfl, allowed⟩ := account.attempt_eq at_i
  rw [began_attempt]
  exact (attempt_ended allowed).2

end Terms

/-- How many calls some records tell of. -/
def callsIn (records : List Record) : Nat :=
  records.countP fun r => match r.event with
    | .called .. => true
    | _ => false

namespace Terms

variable {t : Terms} {attempts : List Attempt} {result : StepResult} {ended : Nat}

theorem callsIn_records {a : Attempt} (served : ∀ e, a.ending ≠ .refused e) :
    callsIn (t.records a) = 1 := by
  unfold records
  cases ending : a.ending with
  | refused e => exact absurd ending (served e)
  | answered | timedOut | interrupted => rfl

/-- An error that tells a number of attempts tells all of them, and none has been refused. -/
theorem Account.last_of_tells (account : t.Account attempts result ended) {e : StepError} {n : Nat}
    (failed : result = .error e) (tells : e.attempts? = some n) :
    n = attempts.length ∧ ∀ a, attempts.getLast? = some a → ∀ e, a.ending ≠ .refused e := by
  have outcome := account.outcome
  subst failed
  cases last : attempts.getLast? with
  | none =>
    rw [last] at outcome
    obtain ⟨⟨⟩, -⟩ := outcome
    cases tells
  | some a =>
    rw [last] at outcome
    dsimp only at outcome
    split at outcome
    · obtain ⟨⟨⟩, -⟩ := outcome
      cases tells
    · obtain ⟨is, -⟩ := outcome
      have same (a' : Attempt) (h : some a = some a') : a = a' := Option.some.inj h
      cases ending : a.ending with
      | answered answer =>
        cases answer with
        | ok output => simp [resultOf, ending] at is
        | error cause =>
          rw [ending, resultOf] at is
          cases is
          exact ⟨(Option.some.inj tells).symm, fun a' h => same a' h ▸ by simp [ending]⟩
      | timedOut =>
        rw [ending, resultOf] at is
        cases is
        exact ⟨(Option.some.inj tells).symm, fun a' h => same a' h ▸ by simp [ending]⟩
      | interrupted | refused =>
        rw [ending, resultOf] at is
        cases is
        cases tells

/-- Where an error tells a number of attempts, so many calls have been made. -/
theorem Account.callsIn_eq (account : t.Account attempts result ended) {e : StepError} {n : Nat}
    (failed : result = .error e) (tells : e.attempts? = some n) :
    callsIn (attempts.flatMap t.records) = n := by
  obtain ⟨rfl, served⟩ := account.last_of_tells failed tells
  have one (a : Attempt) (mem : a ∈ attempts) : callsIn (t.records a) = 1 := by
    refine callsIn_records fun e refused => ?_
    obtain ⟨i, at_i⟩ := List.mem_iff_getElem?.mp mem
    by_cases last : i + 1 < attempts.length
    · have next := account.next i a at_i
      rw [List.getElem?_eq_getElem last] at next
      simp [refused, Ending.isRetryable] at next
    · refine served a ?_ e refused
      rw [List.getLast?_eq_getElem?, ← at_i]
      congr
      grind
  rw [callsIn, List.countP_flatMap]
  show (attempts.map fun a => callsIn (t.records a)).sum = attempts.length
  rw [List.map_congr_left one]
  simp only [List.map_const', List.sum_replicate_nat, Nat.mul_one]

end Terms
end PipelineRunner
