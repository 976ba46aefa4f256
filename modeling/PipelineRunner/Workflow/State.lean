/-!
The life of a workflow: pending, started, running, done. A state cell only ever moves forward, and
tells its readers when it has moved.
-/

namespace PipelineRunner

/-- How far a workflow has come. -/
inductive WorkflowState where
  /-- What is answered about a workflow that nobody knows. -/
  | undefined
  | pending
  | started
  | running
  | done
  deriving DecidableEq, Repr, Inhabited

namespace WorkflowState

def code : WorkflowState → Int
  | undefined => -1
  | pending => 0
  | started => 1
  | running => 2
  | done => 3

def ofCode? (code : Int) : Option WorkflowState :=
  if code = -1 then some undefined
  else if code = 0 then some pending
  else if code = 1 then some started
  else if code = 2 then some running
  else if code = 3 then some done
  else none

@[simp]
theorem ofCode?_code (s : WorkflowState) : ofCode? s.code = some s := by
  cases s <;> decide

def unknownCodeMessage (code : Int) : String :=
  s!"unknown workflow state code {code}"

def name : WorkflowState → String
  | undefined => "undefined"
  | pending => "pending"
  | started => "started"
  | running => "running"
  | done => "done"

def isDone (s : WorkflowState) : Bool := s == done

def before (s t : WorkflowState) : Bool := s.code < t.code

def max (s t : WorkflowState) : WorkflowState := if s.before t then t else s

end WorkflowState

/-- A state that moves forward, and how often it has moved. -/
structure StateCell where
  state : WorkflowState := .undefined
  moves : Nat := 0
  deriving DecidableEq, Repr, Inhabited

namespace StateCell

/-- Moves to a later state, and tells whether it has moved. -/
def advance (cell : StateCell) (next : WorkflowState) : StateCell × Bool :=
  if cell.state.before next then (⟨next, cell.moves + 1⟩, true) else (cell, false)

@[simp]
theorem advance_state (cell : StateCell) (next : WorkflowState) :
    (cell.advance next).1.state = cell.state.max next := by
  simp only [advance, WorkflowState.max]
  split <;> rfl

end StateCell
end PipelineRunner
