import PipelineRunner.Container.Client
import PipelineRunner.Proofs.WorkCourses

/-! What is said to the client of a container engine. An operation of the runtime is a dialogue: it
calls the client, and how it goes on depends on what the call has come to. Calls may come to
anything: the program cannot be started, or it ends in any way and prints anything. Which calls
there have been is read off the history of the world. -/

namespace PipelineRunner

open Host

/-- A call of the client, and what it has come to. -/
structure Exchange where
  arguments : List String
  outcome : Except StartError Finished
  deriving DecidableEq

namespace ContainerClient

/-- What a call yields that has come to this. -/
def answer (c : ContainerClient) (exchange : Exchange) : Except Cause String :=
  let line := c.binary ++ " " ++ Text.join " " exchange.arguments
  match exchange.outcome with
  | .error e => .error ((Cause.because e.message).within s!"Failed to execute {line}")
  | .ok f =>
    if f.status.isSuccess then .ok (trimmed f.stdout)
    else
      let status := statusText f.status
      .error (.because s!"{line} failed: exit_code={status}, stderr='{trimmed f.stderr}'")

theorem call_eq (c : ContainerClient) (arguments : List String) :
    c.call arguments = (c.site.run (c.binary :: arguments)).bind fun outcome =>
      .done (c.answer ⟨arguments, outcome⟩) := by
  refine congrArg (Work.bind _) (funext fun outcome => ?_)
  cases outcome with
  | error e => rfl
  | ok f =>
    simp only [answer]
    split <;> rfl

/-- The call of the client that an event tells of. -/
def exchange? (c : ContainerClient) : Event → Option Exchange
  | .remarked (.ran (program :: arguments) outcome) =>
    if program = c.binary then some ⟨arguments, outcome⟩ else none
  | _ => none

/-- The calls of the client that a world tells of, in their order. -/
def calls (c : ContainerClient) (w : World) : List Exchange :=
  (w.history.filterMap fun r => c.exchange? r.event).reverse

variable {c : ContainerClient} {w w' : World}

theorem calls_still (same : w'.history = w.history) : c.calls w' = c.calls w := by
  rw [calls, calls, same]

theorem calls_note (place : Place) (event : Event) :
    c.calls (w.note place event) = c.calls w ++ (c.exchange? event).toList := by
  cases told : c.exchange? event <;> simp [calls, World.note, told]

theorem calls_log (place : Place) (workflow : String) (level : LogLevel) (message : String) :
    c.calls (w.log place workflow level message) = c.calls w :=
  (calls_note place _).trans (List.append_nil _)

/-- The calls that are told of in these turns. -/
def callsDuring (c : ContainerClient) (turns : List (World × World)) : List Exchange :=
  turns.flatMap fun turn => (c.calls turn.2).drop (c.calls turn.1).length

theorem callsDuring_cons {told : List Exchange} {turns : List (World × World)}
    (more : c.calls w' = c.calls w ++ told) :
    c.callsDuring ((w, w') :: turns) = told ++ c.callsDuring turns := by
  simp [callsDuring, more]

end ContainerClient

/-! ### Dialogues -/

/-- What is to be said to the client: call by call, each as the answers so far bid. -/
inductive Dialogue (α : Type) where
  | done (value : α)
  | ask (arguments : List String) (next : Except Cause String → Dialogue α)

namespace Dialogue

variable {α β : Type} {c : ContainerClient} {d e : Dialogue α} {said more : List Exchange} {a : α}

/-- Goes on with the value of a dialogue. -/
def bind : Dialogue α → (α → Dialogue β) → Dialogue β
  | done a, f => f a
  | ask arguments next, f => .ask arguments fun answer => (next answer).bind f

/-- The work that saying it is. -/
def work (c : ContainerClient) : Dialogue α → Work α
  | done a => .done a
  | ask arguments next => (c.call arguments).bind fun answer => (next answer).work c

/-- A dialogue goes on with the answer to its first call. -/
theorem work_ask (arguments : List String) (next : Except Cause String → Dialogue α) :
    (ask arguments next).work c = (c.site.run (c.binary :: arguments)).bind fun outcome =>
      (next (c.answer ⟨arguments, outcome⟩)).work c := by
  rw [work, ContainerClient.call_eq, Work.bind_assoc]
  rfl

/-- When these calls have been made, this is what is left of a dialogue. -/
inductive Leads (c : ContainerClient) : Dialogue α → List Exchange → Dialogue α → Prop where
  | here {d : Dialogue α} : Leads c d [] d
  | ask {arguments : List String} {next : Except Cause String → Dialogue α}
      {said : List Exchange} {d : Dialogue α} (outcome : Except StartError Finished)
      (goesOn : Leads c (next (c.answer ⟨arguments, outcome⟩)) said d) :
      Leads c (.ask arguments next) (⟨arguments, outcome⟩ :: said) d

theorem Leads.trans {d e f : Dialogue α} (leads : d.Leads c said e) (later : e.Leads c more f) :
    d.Leads c (said ++ more) f := by
  induction leads with
  | here => exact later
  | ask outcome _ ih => exact .ask outcome (ih later)

theorem Leads.snoc {arguments : List String} {next : Except Cause String → Dialogue α}
    (leads : d.Leads c said (.ask arguments next)) (outcome : Except StartError Finished) :
    d.Leads c (said ++ [⟨arguments, outcome⟩]) (next (c.answer ⟨arguments, outcome⟩)) :=
  leads.trans (.ask outcome .here)

theorem Leads.of_done {b : α} (leads : (Dialogue.done a).Leads c said (.done b)) :
    said = [] ∧ a = b := by
  cases leads with
  | here => exact ⟨rfl, rfl⟩

theorem Leads.of_ask {arguments : List String} {next : Except Cause String → Dialogue α}
    (leads : (Dialogue.ask arguments next).Leads c said (.done a)) :
    ∃ outcome later, said = ⟨arguments, outcome⟩ :: later ∧
      (next (c.answer ⟨arguments, outcome⟩)).Leads c later (.done a) := by
  cases leads with
  | ask outcome goesOn => exact ⟨outcome, _, rfl, goesOn⟩

theorem Leads.bind {f : α → Dialogue β} (leads : d.Leads c said e) :
    (d.bind f).Leads c said (e.bind f) := by
  induction leads with
  | here => exact .here
  | ask outcome _ ih => exact .ask outcome ih

end Dialogue

/-! ### What work tells of the client -/

/-- However a piece of work goes on, it comes to its end, and the calls of the client that it has
told of, with those before, and the value that it yields are as they should be. -/
def Work.Tells {α : Type} (c : ContainerClient) (good : List Exchange → α → Prop) :
    Work α → List Exchange → Prop
  | .done a, said => good said a
  | .sleep _ rest, said => (rest ()).Tells c good said
  | .log _ _ _ rest, said => rest.Tells c good said
  | .remark what rest, said => rest.Tells c good (said ++ (c.exchange? (.remarked what)).toList)
  | .count _ rest, said => ∀ n, (rest n).Tells c good said
  | .readFiles rest, said => ∀ files, (rest files).Tells c good said
  | .writeFiles _ rest, said => rest.Tells c good said
  | .crash _, _ => False

/-- The same of work that has been performed up to the point where it waits. -/
def Progress.Tells {α : Type} (c : ContainerClient) (good : List Exchange → α → Prop)
    (said : List Exchange) : Progress α → Prop
  | .finished a => good said a
  | .waits wait => wait.rest.Tells c good said
  | .crashed _ => False

namespace Work.Tells

open ContainerClient

variable {α β : Type} {c : ContainerClient} {work : Work α} {said : List Exchange}
  {good good' : List Exchange → α → Prop} {place : Place}

theorem bind {f : α → Work β} {fine : List Exchange → β → Prop} (tells : work.Tells c good said)
    (goesOn : ∀ said a, good said a → (f a).Tells c fine said) : (work.bind f).Tells c fine said := by
  induction work generalizing said with
  | done a => exact goesOn said a tells
  | sleep ms rest ih => exact ih () tells
  | log workflow level message rest ih | remark what rest ih | writeFiles files rest ih =>
    exact ih tells
  | count counter rest ih | readFiles rest ih => exact fun x => ih x (tells x)
  | crash reason => exact tells.elim

theorem mono (tells : work.Tells c good said) (weaker : ∀ said a, good said a → good' said a) :
    work.Tells c good' said := by
  have same : (work.bind .done).Tells c good' said := tells.bind weaker
  rwa [Work.bind_done] at same

/-- What is performed tells of calls in the history of the world. -/
theorem perform (tells : work.Tells c good said) (place : Place) (w : World) :
    ∃ told, c.calls (World.perform place work w).1 = c.calls w ++ told ∧
      (World.perform place work w).2.Tells c good (said ++ told) := by
  induction work generalizing said w with
  | done a => exact ⟨[], (List.append_nil _).symm, by rwa [List.append_nil]⟩
  | sleep ms rest ih =>
    cases ms with
    | zero => exact ih () tells w
    | succ ms =>
      have untold : c.calls (w.setTimer (ms + 1)).1 = c.calls w := calls_still rfl
      exact ⟨[], untold.trans (List.append_nil _).symm, by rwa [List.append_nil]⟩
  | log workflow level message rest ih =>
    obtain ⟨told, calls, goesOn⟩ := ih tells (w.log place workflow level message)
    exact ⟨told, by rw [World.perform, calls, calls_log], goesOn⟩
  | remark what rest ih =>
    obtain ⟨told, calls, goesOn⟩ := ih tells (w.note place (.remarked what))
    refine ⟨(c.exchange? (.remarked what)).toList ++ told, ?_, ?_⟩
    · rw [World.perform, calls, calls_note, List.append_assoc]
    · rwa [World.perform, ← List.append_assoc]
  | count counter rest ih => exact ih _ (tells _) (w.countUp counter).1
  | readFiles rest ih => exact ih _ (tells _) w
  | writeFiles files rest ih => exact ih tells { w with files }
  | crash reason => exact tells.elim

/-- Whatever others do between its turns, work tells of the right calls in them. -/
theorem performs {turns : List (World × World)} {a : α} (tells : work.Tells c good said)
    (performed : World.Performs place work turns a) : good (said ++ c.callsDuring turns) a := by
  induction performed generalizing said with
  | @ends work w w' a turn =>
    obtain ⟨told, calls, result⟩ := tells.perform place w
    rw [turn] at calls result
    simpa [callsDuring, calls, Progress.Tells] using result
  | @waits work w w' wait turns a turn _ ih =>
    obtain ⟨told, calls, goesOn⟩ := tells.perform place w
    rw [turn] at calls goesOn
    simpa [callsDuring_cons calls] using ih goesOn

/-- The same where somebody waits for the work, as long as nobody else calls the client
meanwhile. -/
theorem completed {σ : Type} {h : World.Holder σ} (place : Place) (Quiet : σ → Prop)
    (world : ∀ w s, h.world (h.setWorld w s) = w)
    (setWorld : ∀ w s, Quiet s → Quiet (h.setWorld w s))
    (pass : ∀ ms s, Quiet s →
      Quiet (h.pass ms s) ∧ c.calls (h.world (h.pass ms s)) = c.calls (h.world s))
    (tells : work.Tells c good said) {s : σ} (quiet : Quiet s) :
    ∃ s' a told, World.completeWithin h place work s = (s', .ok a) ∧ Quiet s' ∧
      c.calls (h.world s') = c.calls (h.world s) ++ told ∧ good (said ++ told) a := by
  induction work generalizing said s with
  | done a =>
    exact ⟨s, a, [], rfl, quiet, (List.append_nil _).symm, by rwa [List.append_nil]⟩
  | sleep ms rest ih =>
    obtain ⟨still, same⟩ := pass (min ms longestWait) s quiet
    rw [← same]
    exact ih () tells still
  | log workflow level message rest ih =>
    obtain ⟨s', a, told, completed, still, calls, fine⟩ := ih tells (setWorld _ s quiet)
    rw [world, calls_log] at calls
    exact ⟨s', a, told, completed, still, calls, fine⟩
  | remark what rest ih =>
    obtain ⟨s', a, told, completed, still, calls, fine⟩ := ih tells (setWorld _ s quiet)
    rw [world, calls_note, List.append_assoc] at calls
    rw [List.append_assoc] at fine
    exact ⟨s', a, _, completed, still, calls, fine⟩
  | count counter rest ih =>
    obtain ⟨s', a, told, completed, still, calls, fine⟩ :=
      ih _ (tells _) (setWorld ((h.world s).countUp counter).1 s quiet)
    rw [world] at calls
    exact ⟨s', a, told, completed, still, calls, fine⟩
  | readFiles rest ih => exact ih _ (tells _) quiet
  | writeFiles files rest ih =>
    obtain ⟨s', a, told, completed, still, calls, fine⟩ :=
      ih tells (setWorld { h.world s with files } s quiet)
    rw [world] at calls
    exact ⟨s', a, told, completed, still, calls, fine⟩
  | crash reason => exact tells.elim

end Work.Tells

namespace Host

variable {c : ContainerClient}

/-- Waiting for a program tells of nothing. -/
theorem Process.finishAfter_tells (p : Process) (seen : Collected) (said : List Exchange) :
    (p.finishAfter seen).Tells c (fun all _ => all = said) said := by
  induction p generalizing seen with
  | exited status rest ih =>
    simp only [finishAfter]
    split
    · exact rfl
    · exact ih () _
  | closed stream rest ih =>
    simp only [finishAfter]
    split
    · exact rfl
    · exact ih () _
  | write stream bytes rest ih => exact ih true _
  | sleep ms rest ih | writeFiles files rest ih => exact ih () _
  | readFiles rest ih => exact fun files => ih files _
  | _ => exact rfl

/-- Whatever has come of a program is told. -/
theorem Site.run_tells (site : Site) (arguments : List String) (said : List Exchange) :
    (site.run (c.binary :: arguments)).Tells c
      (fun all outcome => all = said ++ [⟨arguments, outcome⟩]) said := by
  have awaited : (site.await (c.binary :: arguments)).Tells c (fun all _ => all = said) said := by
    intro t
    dsimp only
    split
    next p _ => exact (p.finishAfter_tells {} said).bind fun _ _ same => same
    next => exact rfl
  refine awaited.bind fun all outcome same => ?_
  subst same
  simp [Work.Tells, ContainerClient.exchange?]

end Host

/-- Work that holds a dialogue tells of calls that lead it to its end. -/
theorem Dialogue.work_tells {α : Type} {c : ContainerClient} (d : Dialogue α)
    (said : List Exchange) :
    (d.work c).Tells c (fun all a => ∃ told, all = said ++ told ∧ d.Leads c told (.done a)) said := by
  induction d generalizing said with
  | done a => exact ⟨[], by simp, .here⟩
  | ask arguments next ih =>
    rw [work_ask]
    refine (c.site.run_tells arguments said).bind fun all outcome same => ?_
    subst same
    refine (ih (c.answer ⟨arguments, outcome⟩) _).mono fun all a ⟨told, same, leads⟩ => ?_
    exact ⟨⟨arguments, outcome⟩ :: told, by simp [same], .ask outcome leads⟩

/-! ### The operations of the runtime -/

namespace ContainerClient

-- The arguments of the calls.

def toPull (image : String) : List String := ["pull", "--quiet", image]
def toCreate (image : String) : List String := ["create", "-it", "--entrypoint", "sh", image]
def toStart (container : String) : List String := ["start", container]
def toStop (container : String) : List String := ["stop", container]
def toRemove (container : String) : List String := ["rm", "-f", container]

def fetching (image : String) : Dialogue (Except Cause Unit) :=
  .ask (toPull image) fun answer => .done (answer.map fun _ => ())

def starting (c : ContainerClient) (image : String) : Dialogue (Except Cause String) :=
  .ask (toCreate image) fun
    | .error cause => .done (.error cause)
    | .ok id =>
      if id.isEmpty then .done (.error (.because s!"{c.binary} create returned no container id"))
      else .ask (toStart id) fun
        | .ok _ => .done (.ok id)
        | .error cause => .ask (toRemove id) fun _ => .done (.error cause)

def stopping (container : String) : Dialogue (Except Cause Unit) :=
  .ask (toStop container) fun stopped => .ask (toRemove container) fun removed =>
    .done (stopped.bind fun _ => removed.map fun _ => ())

theorem pull_eq (c : ContainerClient) (image : String) : c.pull image = (fetching image).work c :=
  rfl

theorem start_eq (c : ContainerClient) (image : String) :
    c.start image = (c.starting image).work c := by
  refine congrArg (Work.bind _) (funext fun created => ?_)
  cases created with
  | error cause => rfl
  | ok id =>
    dsimp only
    split
    · rfl
    · refine congrArg (Work.bind _) (funext fun started => ?_)
      cases started <;> rfl

theorem stop_eq (c : ContainerClient) (container : String) :
    c.stop container = (stopping container).work c := by
  refine congrArg (Work.bind _) (funext fun stopped => congrArg (Work.bind _) (funext fun _ => ?_))
  cases stopped <;> rfl

end ContainerClient
end PipelineRunner
