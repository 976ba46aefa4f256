/-!
Who has the turn among branches that run beside each other. Where branches part, those that want a
turn stand in a queue. A round gives each of them one turn, and nested branches have rounds of their
own within a turn. A round is broken off, and asked for again, once every branch has had a turn in
it or two branches have asked for another turn during their own; this keeps whoever runs beside the
branches from waiting for ever.
-/

namespace PipelineRunner

/-- A round of turns at a place where branches part. -/
structure Round where
  /-- Where the branches part: the positions of the branches on the way there. -/
  join : List Nat
  /-- The branch that has the turn. -/
  branch : Nat
  /-- How many turns are left in the round, with the one under way. -/
  left : Nat
  /-- How many branches have asked for another turn during their own. -/
  restless : Nat := 0
  deriving DecidableEq, Repr

/-- The turns of branches at all depths. -/
structure Rota where
  /-- The branches that want a turn, in their order, at each place where branches part. -/
  queues : List (List Nat × List Nat) := []
  /-- The rounds under way, the innermost first. -/
  rounds : List Round := []
  /-- Whether the whole has a turn. -/
  onTurn : Bool := false
  /-- Whether the whole wants a turn. -/
  called : Bool := true
  deriving DecidableEq, Repr

namespace Rota

def place (r : Rota) : List Nat :=
  match r.rounds with
  | [] => []
  | round :: _ => round.join ++ [round.branch]

/-- The branches that want a turn at a place. -/
def queue (r : Rota) (join : List Nat) : List Nat := (r.queues.lookup join).getD []

/-- Lets exactly these branches stand in the queue of a place. -/
def setQueue (r : Rota) (join : List Nat) (branches : List Nat) : Rota :=
  { r with queues := (join, branches) :: r.queues.filter fun q => q.1 != join }

/-- Lets a branch stand in the queue of a place, where it may stand already. -/
def enqueue (r : Rota) (join : List Nat) (branch : Nat) : Rota :=
  if (r.queue join).contains branch then r else r.setQueue join (r.queue join ++ [branch])

/-- Calls the branches on a way that goes on from a place. -/
def callFrom (here : List Nat) : List Nat → Rota → Rota
  | [], r => r
  | branch :: way, r => callFrom (here ++ [branch]) way (r.enqueue here branch)

/-- Calls for a turn of a place, and so of every branch on the way there and of the whole. -/
def call (r : Rota) (place : List Nat) : Rota := { callFrom [] place r with called := true }

/-- Lets as many branches as there are want their first turn at a place. -/
def gather (r : Rota) (join : List Nat) (branches : Nat) : Rota :=
  r.setQueue join (List.range branches)

/-- Gives the turn to the first branch in the queue of the round's place, if there is one. -/
def next? (r : Rota) (round : Round) (outer : List Round) : Option Rota :=
  match r.queue round.join with
  | [] => none
  | branch :: rest =>
    some { r.setQueue round.join rest with rounds := { round with branch } :: outer }

/-- Ends the turn under way: the rounds within which it was are given inside out, until a branch is
found that wants its turn. -/
def yieldWithin (r : Rota) : List Round → Rota
  | [] => { r with rounds := [], onTurn := false }
  | round :: outer =>
    let again := if (r.queue round.join).contains round.branch then 1 else 0
    let restless := round.restless + again
    let left := round.left - 1
    if left = 0 || 2 ≤ restless then (r.call round.join).yieldWithin outer
    else (r.next? { round with left, restless } outer).getD (r.yieldWithin outer)

/-- Ends the turn under way, for want of anything to do. -/
def yield (r : Rota) : Rota := r.yieldWithin r.rounds

/-- Begins a round among so many branches at the place that has the turn. -/
def openRound (r : Rota) (branches : Nat) : Rota :=
  (r.next? { join := r.place, branch := 0, left := branches } r.rounds).getD r.yield

/-- Begins the round under way anew among so many branches, because one of them has come in. When
none is left, the place itself goes on with the turn. -/
def renew (r : Rota) (branches : Nat) : Rota :=
  match r.rounds with
  | [] => r
  | round :: outer =>
    if branches = 0 then { r with rounds := outer }
    else
      (r.next? { round with left := branches, restless := 0 } outer).getD (r.yieldWithin outer)

/-- Gives the whole its turn. -/
def begin (r : Rota) : Rota := { r with onTurn := true, called := false }

end Rota
end PipelineRunner
