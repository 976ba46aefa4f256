import PipelineRunner.Script.Lexeme

/-!
Reading the tokens of a script as a pipeline. Each reader takes the tokens to come and gives what
it has read with the tokens behind it.

    Pipeline  := "pipeline" "{" "agent" Agent Stages "}"
    Agent     := "none" | "{" "docker" String "}"
    Stages    := "stages" "{" Stage+ "}"
    Stage     := "stage" "(" String ")" "{" ["agent" Agent] [Steps] [FailFast] [Parallel] "}"
    Steps     := "steps" "{" Step+ "}"
    Step      := Ident String | Ident Param ("," Param)*
    Param     := Ident ":" String
    FailFast  := "failFast" Bool
    Parallel  := "parallel" "{" Stage+ "}"
-/

namespace PipelineRunner.Script

/-- Reads one token for which `accept` gives a value. -/
def readToken {α : Type} (expected : Expectation) (accept : TokenKind → Option α) :
    List Token → Except SyntaxError (α × List Token)
  | [] => .error (.unexpectedEnd expected)
  | token :: rest =>
    match accept token.kind with
    | some a => .ok (a, rest)
    | none => .error (.unexpectedToken expected token)

def expect (kind : TokenKind) (ts : List Token) : Except SyntaxError (List Token) :=
  (readToken (.token kind) (fun k => if k = kind then some () else none) ts).map (·.2)

def readString (expected : Expectation) :
    List Token → Except SyntaxError (String × List Token) :=
  readToken expected fun
    | .string s => some s
    | _ => none

def readIdent (expected : Expectation) : List Token → Except SyntaxError (String × List Token) :=
  readToken expected fun
    | .ident name => some name
    | _ => none

def readBool : List Token → Except SyntaxError (Bool × List Token) :=
  readToken .truthValue fun
    | .bool b => some b
    | _ => none

def readAgent (ts : List Token) : Except SyntaxError (Agent × List Token) := do
  let (isDocker, ts) ← readToken .agent (fun
    | .keyword .none => some false
    | .leftBrace => some true
    | _ => none) ts
  if isDocker then
    let ts ← expect (.keyword .docker) ts
    let (image, ts) ← readString .dockerImage ts
    let ts ← expect .rightBrace ts
    .ok (.docker image, ts)
  else .ok (.none, ts)

/-- Reads a part that is there if the next token is `word`. -/
def readOptional {α : Type} (word : Keyword) (missing : α)
    (read : List Token → Except SyntaxError (α × List Token)) :
    List Token → Except SyntaxError (α × List Token)
  | [] => .ok (missing, [])
  | token :: rest => if token.kind = .keyword word then read rest else .ok (missing, token :: rest)

/-- Reads a parameter. A name that no colon follows is taken for the fault itself. -/
def readParam : List Token → Except SyntaxError (Param × List Token)
  | ts => do
    match ts with
    | [token@⟨.ident _, _⟩] => throw (.unexpectedToken .parameter token)
    | token@⟨.ident _, _⟩ :: second :: _ =>
      if second.kind ≠ .colon then throw (.unexpectedToken .parameter token)
    | _ => pure ()
    let (key, ts) ← readIdent .parameter ts
    let ts ← expect .colon ts
    let (value, ts) ← readString .parameterValue ts
    .ok (⟨key, value⟩, ts)

/-- Reads the parameters behind the first one; each takes at least a token. -/
def readMoreParams : Nat → List Token → Except SyntaxError (List Param × List Token)
  | fuel + 1, ⟨.comma, _⟩ :: ts => do
    let (param, ts) ← readParam ts
    let (params, ts) ← readMoreParams fuel ts
    .ok (param :: params, ts)
  | _, ts => .ok ([], ts)

def readStep (ts : List Token) : Except SyntaxError (Step × List Token) := do
  let (command, ts) ← readIdent .stepCommand ts
  match ts with
  | ⟨.string value, _⟩ :: ts => .ok (.single command value, ts)
  | ts =>
    let (param, ts) ← readParam ts
    let (params, ts) ← readMoreParams ts.length ts
    .ok (.multi command (param :: params), ts)

/-- Reads the steps behind the first one; each takes at least a token. -/
def readMoreSteps : Nat → List Token → Except SyntaxError (List Step × List Token)
  | fuel + 1, token@⟨.ident _, _⟩ :: ts => do
    let (step, ts) ← readStep (token :: ts)
    let (steps, ts) ← readMoreSteps fuel ts
    .ok (step :: steps, ts)
  | _, ts => .ok ([], ts)

def readSteps (ts : List Token) : Except SyntaxError (List Step × List Token) := do
  let ts ← expect .leftBrace ts
  let (step, ts) ← readStep ts
  let (steps, ts) ← readMoreSteps ts.length ts
  let ts ← expect .rightBrace ts
  .ok (step :: steps, ts)

mutual

/-- Reads a stage from at most `fuel` tokens: without any token left, none can begin. -/
def readStage : Nat → List Token → Except SyntaxError (Stage × List Token)
  | 0, _ => .error (.unexpectedEnd (.token (.keyword .stage)))
  | fuel + 1, ts => do
    let ts ← expect (.keyword .stage) ts
    let ts ← expect .leftParen ts
    let (name, ts) ← readString .stageName ts
    let ts ← expect .rightParen ts
    let ts ← expect .leftBrace ts
    let (agent, ts) ← readOptional .agent none
      (fun ts => (readAgent ts).map fun (a, rest) => (some a, rest)) ts
    let (steps, ts) ← readOptional .steps [] readSteps ts
    let (failFast, ts) ← readOptional .failFast none
      (fun ts => (readBool ts).map fun (b, rest) => (some b, rest)) ts
    let (parallel, ts) ← readOptional .parallel [] (readStageBlock fuel) ts
    let ts ← expect .rightBrace ts
    .ok (⟨name, agent, steps, failFast, parallel⟩, ts)

/-- Reads one or more stages in braces. -/
def readStageBlock : Nat → List Token → Except SyntaxError (List Stage × List Token)
  | 0, _ => .error (.unexpectedEnd (.token .leftBrace))
  | fuel + 1, ts => do
    let ts ← expect .leftBrace ts
    let (stage, ts) ← readStage fuel ts
    let (stages, ts) ← readMoreStages fuel ts
    let ts ← expect .rightBrace ts
    .ok (stage :: stages, ts)

/-- Reads the stages behind the first one. -/
def readMoreStages : Nat → List Token → Except SyntaxError (List Stage × List Token)
  | fuel + 1, token@⟨.keyword .stage, _⟩ :: ts => do
    let (stage, ts) ← readStage fuel (token :: ts)
    let (stages, ts) ← readMoreStages fuel ts
    .ok (stage :: stages, ts)
  | _, ts => .ok ([], ts)

end

def readPipeline (ts : List Token) : Except SyntaxError Pipeline := do
  let rest ← expect (.keyword .pipeline) ts
  let rest ← expect .leftBrace rest
  let rest ← expect (.keyword .agent) rest
  let (agent, rest) ← readAgent rest
  let rest ← expect (.keyword .stages) rest
  let (stages, rest) ← readStageBlock ts.length rest
  let rest ← expect .rightBrace rest
  match rest with
  | [] => .ok ⟨agent, stages⟩
  | token :: _ => .error (.unexpectedToken .endOfInput token)

/-- The pipeline that a script describes. -/
def parse (source : String) : Except SyntaxError Pipeline := do
  let tokens ← tokenize source
  let pipeline ← readPipeline tokens
  match pipeline.defect? with
  | none => .ok pipeline
  | some defect => .error (.invalid defect)

end PipelineRunner.Script
