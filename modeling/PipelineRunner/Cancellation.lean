/-!
Cancellation as a forest: a token is cancelled by itself or with any token above it, and never comes
back. Tokens are numbered as they are made; several tokens may share a node of the forest. Whoever
waits for a token looks at its node and at those above it, and subscribes to each that is not
cancelled; when a node is cancelled its subscribers may have another look.
-/

namespace PipelineRunner

/-- A node of a forest of tokens. -/
structure CancelNode where
  /-- The number of the node above. -/
  parent : Option Nat
  cancelled : Bool := false
  deriving DecidableEq, Repr

/-- Nodes, the latest first: the number of a node is the number of nodes behind it, and its parent
is one of those. -/
abbrev CancelNodes := List CancelNode

namespace CancelNodes

/-- A node and the nodes above it, upwards. -/
def lineage : CancelNodes → Nat → List Nat
  | [], _ => []
  | node :: older, n =>
    if n = older.length then
      n :: match node.parent with
        | some p => lineage older p
        | none => []
    else lineage older n

/-- Whether a node itself has been cancelled. -/
def isMarked : CancelNodes → Nat → Bool
  | [], _ => false
  | node :: older, n => if n = older.length then node.cancelled else isMarked older n

def mark (n : Nat) : CancelNodes → CancelNodes
  | [] => []
  | node :: older =>
    if n = older.length then { node with cancelled := true } :: older else node :: mark n older

def isCancelled (nodes : CancelNodes) (n : Nat) : Bool :=
  (nodes.lineage n).any nodes.isMarked

/-- The nodes to subscribe to for the cancellation of a node: itself and those above it. There is
nothing to subscribe to if one of them turns out to be cancelled on the way up. -/
def subscribe : CancelNodes → Nat → Option (List Nat)
  | [], _ => some []
  | node :: older, n =>
    if n = older.length then
      if node.cancelled then none
      else match node.parent with
        | some p => (subscribe older p).map (n :: ·)
        | none => some [n]
    else subscribe older n

end CancelNodes

/-- Somebody who waits for the cancellation of a node. -/
structure CancelWaiter where
  node : Nat
  /-- The nodes whose cancellation calls for another look. -/
  subscriptions : List Nat := []
  /-- Whether a look is due; the first one is due at once. -/
  ready : Bool := true
  woken : Bool := false
  deriving DecidableEq, Repr

namespace CancelWaiter

/-- A waiter whose look is due has it. -/
def poll (nodes : CancelNodes) (w : CancelWaiter) : CancelWaiter :=
  if w.ready then
    match nodes.subscribe w.node with
    | none => { w with subscriptions := [], ready := false, woken := true }
    | some subscriptions => { w with subscriptions, ready := false }
  else w

/-- What a waiter makes of the cancellation of a node. -/
def notice (n : Nat) (w : CancelWaiter) : CancelWaiter :=
  if w.subscriptions.contains n then { w with ready := true } else w

end CancelWaiter

/-- Tokens and those who wait for them. -/
structure CancelForest where
  nodes : CancelNodes := []
  /-- The node of each token. -/
  tokens : List Nat := []
  waiters : List CancelWaiter := []
  deriving Repr

/-- What can be done with tokens; each of the first three makes a token. -/
inductive CancelOp where
  | new
  | child (token : Nat)
  | clone (token : Nat)
  | cancel (token : Nat)
  | wait (token : Nat)
  deriving DecidableEq, Repr

namespace CancelForest

def empty : CancelForest := {}

def node (f : CancelForest) (token : Nat) : Nat := f.tokens.getD token 0

def isCancelled (f : CancelForest) (token : Nat) : Bool := f.nodes.isCancelled (f.node token)

/-- Makes a token with a node of its own. -/
def grow (f : CancelForest) (parent : Option Nat) : CancelForest :=
  { f with nodes := ⟨parent, false⟩ :: f.nodes, tokens := f.tokens ++ [f.nodes.length] }

def cancel (f : CancelForest) (token : Nat) : CancelForest :=
  { f with
    nodes := f.nodes.mark (f.node token)
    waiters := f.waiters.map (·.notice (f.node token)) }

def perform (f : CancelForest) : CancelOp → CancelForest
  | .new => f.grow none
  | .child token => f.grow (some (f.node token))
  | .clone token => { f with tokens := f.tokens ++ [f.node token] }
  | .cancel token => f.cancel token
  | .wait token => { f with waiters := f.waiters ++ [{ node := f.node token }] }

/-- Lets one of those who wait have a look. -/
def poll (f : CancelForest) (waiter : Nat) : CancelForest :=
  { f with waiters := f.waiters.modify waiter (·.poll f.nodes) }

/-- Lets all those who wait have a look. -/
def settle (f : CancelForest) : CancelForest :=
  { f with waiters := f.waiters.map (·.poll f.nodes) }

/-- Does something with tokens, and lets those who wait for them notice. -/
def apply (f : CancelForest) (op : CancelOp) : CancelForest := (f.perform op).settle

end CancelForest
end PipelineRunner
