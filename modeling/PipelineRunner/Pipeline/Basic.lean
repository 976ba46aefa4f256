import PipelineRunner.OrderedMap
import PipelineRunner.Text.Basic

/-!
The document that a pipeline script describes. Stages run in order; a stage may have steps of its
own, branches that run beside each other before them, or both.
-/

namespace PipelineRunner

/-- Where the steps of a stage run. -/
inductive Agent where
  /-- On the host. -/
  | none
  /-- In a container made from an image. -/
  | docker (image : String)
  deriving DecidableEq, Repr, Inhabited

/-- A parameter of a step. -/
structure Param where
  key : String
  value : String
  deriving DecidableEq, Repr, Inhabited

/-- What a step does: a command with one value or with named parameters. -/
inductive Step where
  | single (command value : String)
  | multi (command : String) (params : List Param)
  deriving DecidableEq, Repr, Inhabited

/-- A named part of a pipeline. -/
structure Stage where
  name : String
  /-- The agent declared here; without one the stage takes the agent around it. -/
  agent : Option Agent := Option.none
  steps : List Step := []
  failFast : Option Bool := Option.none
  /-- The branches, which run before the stage's own steps. -/
  parallel : List Stage := []
  deriving Repr, Inhabited

/-- A whole pipeline. -/
structure Pipeline where
  agent : Agent
  stages : List Stage
  deriving Repr, Inhabited

/-- The parameters that a plugin is called with. -/
abbrev StepParams := OrderedMap String

namespace Step

/-- The word that selects the plugin. -/
def command : Step → String
  | single command _ => command
  | multi command _ => command

/-- The name under which a step's only value is passed. -/
def textKey : String := "text"

/-- The parameters of a step: of a repeated key the last value counts. -/
def params : Step → StepParams
  | single _ value => [(textKey, value)]
  | multi _ params => OrderedMap.ofEntries (params.map fun p => (p.key, p.value))

end Step

namespace Stage

/-- The agent that the stage runs with. -/
def effectiveAgent (stage : Stage) (inherited : Agent) : Agent :=
  stage.agent.getD inherited

/-- Whether a failing branch interrupts the others. -/
def isFailFast (stage : Stage) : Bool :=
  stage.failFast.getD false

mutual

/-- Whether the stage and all stages nested in it have names with something in them. -/
def isNamed : Stage → Bool
  | ⟨name, _, _, _, parallel⟩ => !Text.isBlankText name && allNamed parallel

def allNamed : List Stage → Bool
  | [] => true
  | stage :: rest => stage.isNamed && allNamed rest

end

mutual

/-- Whether a step runs in a container by a declaration of this stage or of one nested in it. -/
def declaresContainer : Stage → Bool
  | ⟨_, some (.docker _), _, _, _⟩ => true
  | ⟨_, _, _, _, parallel⟩ => anyDeclaresContainer parallel

def anyDeclaresContainer : List Stage → Bool
  | [] => false
  | stage :: rest => stage.declaresContainer || anyDeclaresContainer rest

end

end Stage

/-- What the grammar cannot rule out and a pipeline still must not have. -/
inductive Pipeline.Defect where
  | noStages
  | blankStageName
  deriving DecidableEq, Repr

def Pipeline.Defect.message : Defect → String
  | noStages => "Pipeline must have at least one stage"
  | blankStageName => "Stage name cannot be empty"

namespace Pipeline

def defect? (p : Pipeline) : Option Defect :=
  if p.stages.isEmpty then some .noStages
  else if Stage.allNamed p.stages then Option.none
  else some .blankStageName

/-- Whether running the pipeline may need a container. -/
def usesContainers (p : Pipeline) : Bool :=
  match p.agent with
  | .docker _ => true
  | .none => Stage.anyDeclaresContainer p.stages

end Pipeline
end PipelineRunner
