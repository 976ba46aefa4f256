/-!
Systems in discrete time. A system makes steps, which take no time, as long as it can; then the
clock goes on to the next instant at which something is due.
-/

namespace PipelineRunner

/-- How a system steps and how its clock goes on. -/
structure Clockwork (σ : Type) where
  step : σ → Option σ
  /-- The next instant at which something is due. -/
  nextDue : σ → Option Nat
  moveTo : Nat → σ → σ

namespace Clockwork

variable {σ : Type} (m : Clockwork σ)

/-- More steps and instants than any run takes that comes to an end. -/
def patience : Nat := 1000000000000000

/-- Makes all steps that can be made now, at most so many. -/
def settleWithin : Nat → σ → σ
  | 0, s => s
  | fuel + 1, s =>
    match m.step s with
    | some s' => settleWithin fuel s'
    | none => s

/-- Makes all steps that can be made now. -/
def settle (s : σ) : σ := m.settleWithin patience s

/-- Whether an instant lies before the limit, if there is one. -/
def isBefore (limit : Option Nat) (instant : Nat) : Bool :=
  match limit with
  | some l => instant < l
  | none => true

/-- Runs through the instants before the limit until a settled system has halted, with so many
steps and instants at most. -/
def runWithin (halted : σ → Bool) (limit : Option Nat) : Nat → σ → σ
  | 0, s => s
  | fuel + 1, s =>
    match m.step s with
    | some s' => runWithin halted limit fuel s'
    | none =>
      if halted s then s
      else
        match m.nextDue s with
        | some instant =>
          if isBefore limit instant then runWithin halted limit fuel (m.moveTo instant s) else s
        | none => s

/-- Runs through the instants before the limit until a settled system has halted. -/
def run (halted : σ → Bool) (limit : Option Nat) (s : σ) : σ :=
  m.runWithin halted limit patience s

/-- Runs a system beside which some actions are taken one after the other, each so long after the
one before; the first counts from `now`. The system and the actions take turns: when something is
due for both, the system has its `turn` first, and actions that are due together follow each other
at once. No action is taken once the system has halted. -/
def runBeside (turn : σ → σ) (halted : σ → Bool) (now : Nat) : List (Nat × (σ → σ)) → σ → σ
  | [], s => m.run halted none s
  | (wait, act) :: rest, s =>
    if wait = 0 then runBeside turn halted now rest (act s)
    else
      let instant := now + wait
      let s := m.run halted (some instant) s
      if halted s then s
      else
        let s := turn (m.moveTo instant s)
        if halted s then s else runBeside turn halted instant rest (act s)

end Clockwork

def earliest? (instants : List Nat) : Option Nat := instants.min?

end PipelineRunner
