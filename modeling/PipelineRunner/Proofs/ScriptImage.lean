import PipelineRunner.Proofs.WrittenScripts

/-! Scripts that are written from pipelines. A pipeline is well formed if the grammar has words for
it. Written in the grammar's order, with gaps between the tokens and each string in a quote that it
does not contain, it is read back, and nothing else than a well-formed pipeline is ever read. -/

namespace PipelineRunner

open Script

/-! ### The tokens of a pipeline -/

namespace Agent

def tokens : Agent → List TokenKind
  | none => [.keyword .none]
  | docker image => [.leftBrace, .keyword .docker, .string image, .rightBrace]

end Agent

namespace Param

def tokens (param : Param) : List TokenKind := [.ident param.key, .colon, .string param.value]

end Param

namespace Step

/-- Of parameters each one but the first stands behind a comma. -/
def tokens : Step → List TokenKind
  | single command value => [.ident command, .string value]
  | multi command [] => [.ident command]
  | multi command (param :: params) =>
    .ident command :: (param.tokens ++ params.flatMap fun param => .comma :: param.tokens)

end Step

namespace Stage

/-- A part of a stage that a word announces, where there is one. -/
def optionTokens {α : Type} (word : Keyword) (print : α → List TokenKind) :
    Option α → List TokenKind
  | none => []
  | some a => .keyword word :: print a

/-- A part of a stage that stands in a block behind its word; an empty one is left out. -/
def blockTokens (word : Keyword) : List TokenKind → List TokenKind
  | [] => []
  | tokens => .keyword word :: .leftBrace :: (tokens ++ [.rightBrace])

mutual

def tokens : Stage → List TokenKind
  | ⟨name, agent, steps, failFast, parallel⟩ =>
    [.keyword .stage, .leftParen, .string name, .rightParen, .leftBrace] ++
      (optionTokens .agent Agent.tokens agent ++ (blockTokens .steps (steps.flatMap Step.tokens) ++
        (optionTokens .failFast (fun b => [.bool b]) failFast ++
          (blockTokens .parallel (allTokens parallel) ++ [.rightBrace]))))

def allTokens : List Stage → List TokenKind
  | [] => []
  | stage :: rest => stage.tokens ++ allTokens rest

end

end Stage

def Pipeline.tokens (p : Pipeline) : List TokenKind :=
  [.keyword .pipeline, .leftBrace, .keyword .agent] ++
    (p.agent.tokens ++ (.keyword .stages :: .leftBrace :: (Stage.allTokens p.stages ++
      [.rightBrace, .rightBrace])))

/-! ### Forms that are printed -/

section

variable {α : Type}

/-- A text of a form is what is printed, and the value is one that may be. -/
def Prints (form : Form α) (print : α → List TokenKind) (ok : α → Prop) (a : α) : Prop :=
  ∀ ks rest, form ks a rest ↔ ks = print a ++ rest ∧ ok a

variable {form : Form α} {print : α → List TokenKind} {ok : α → Prop} {as : List α}
  {ks rest : List TokenKind}

theorem star_iff (each : ∀ a ∈ as, Prints form print ok a) :
    Star form ks as rest ↔ ks = as.flatMap print ++ rest ∧ ∀ a ∈ as, ok a := by
  induction as generalizing ks with
  | nil =>
    constructor
    · rintro ⟨⟩
      simp
    · rintro ⟨rfl, -⟩
      exact .nil
  | cons a as ih =>
    have first := each a (.head _)
    have others := fun {ks} => @ih ks fun a mem => each a (.tail _ mem)
    constructor
    · rintro (_ | ⟨here, more⟩)
      obtain ⟨rfl, okHere⟩ := (first _ _).mp here
      obtain ⟨rfl, okMore⟩ := others.mp more
      exact ⟨by simp, List.forall_mem_cons.mpr ⟨okHere, okMore⟩⟩
    · rintro ⟨rfl, all⟩
      obtain ⟨okHere, okMore⟩ := List.forall_mem_cons.mp all
      exact .cons ((first _ _).mpr ⟨by simp, okHere⟩) (others.mpr ⟨rfl, okMore⟩)

theorem block_iff (each : ∀ a ∈ as, Prints form print ok a) :
    Block form ks as rest ↔
      as ≠ [] ∧ ks = .leftBrace :: (as.flatMap print ++ .rightBrace :: rest) ∧ ∀ a ∈ as, ok a := by
  constructor
  · rintro ⟨first, others⟩
    obtain ⟨rfl, all⟩ := (star_iff each).mp (.cons first others)
    exact ⟨by simp, rfl, all⟩
  · rintro ⟨some_, rfl, all⟩
    have inner : Star form (as.flatMap print ++ .rightBrace :: rest) as (.rightBrace :: rest) :=
      (star_iff each).mpr ⟨rfl, all⟩
    revert inner
    cases as with
    | nil => exact absurd rfl some_
    | cons a as =>
      generalize (a :: as).flatMap print ++ .rightBrace :: rest = ks
      rintro (_ | ⟨first, others⟩)
      exact .block first others

theorem optionally_iff {word : Keyword} {o : Option α} (each : ∀ a ∈ o, Prints form print ok a) :
    Optionally word form ks o rest ↔
      ks = Stage.optionTokens word print o ++ rest ∧ ∀ a ∈ o, ok a := by
  cases o with
  | none =>
    constructor
    · rintro ⟨⟩
      exact ⟨rfl, by simp⟩
    · rintro ⟨rfl, -⟩
      exact .absent
  | some a =>
    have only := each a rfl
    constructor
    · rintro (_ | text)
      obtain ⟨rfl, okHere⟩ := (only _ _).mp text
      exact ⟨rfl, by simpa using okHere⟩
    · rintro ⟨rfl, okHere⟩
      exact .present ((only _ _).mpr ⟨rfl, okHere a rfl⟩)

@[simp] theorem blockTokens_nil (word : Keyword) : Stage.blockTokens word [] = [] := rfl

theorem blockTokens_of_ne_nil {word : Keyword} {tokens : List TokenKind} (h : tokens ≠ []) :
    Stage.blockTokens word tokens = .keyword word :: .leftBrace :: (tokens ++ [.rightBrace]) := by
  cases tokens with
  | nil => exact absurd rfl h
  | cons kind tokens => rfl

/-- An optional block is left out exactly if there is nothing to stand in it. -/
theorem optionalBlock_iff {word : Keyword} (each : ∀ a ∈ as, Prints form print ok a)
    (visible : ∀ a, print a ≠ []) :
    (∃ o : Option (List α), o.getD [] = as ∧ Optionally word (Block form) ks o rest) ↔
      ks = Stage.blockTokens word (as.flatMap print) ++ rest ∧ ∀ a ∈ as, ok a := by
  have shown : as ≠ [] → as.flatMap print ≠ [] := by
    cases as <;> simp [visible]
  constructor
  · rintro ⟨_, rfl, absent | text⟩
    · simp
    · obtain ⟨some_, rfl, all⟩ := (block_iff each).mp text
      exact ⟨by rw [blockTokens_of_ne_nil (shown some_)]; simp, all⟩
  · rintro ⟨rfl, all⟩
    by_cases none_ : as = []
    · subst none_
      exact ⟨none, rfl, .absent⟩
    · refine ⟨some as, rfl, ?_⟩
      rw [blockTokens_of_ne_nil (shown none_)]
      exact .present ((block_iff each).mpr ⟨none_, by simp, all⟩)

end

variable {ks rest : List TokenKind}

theorem prints_agent (agent : Agent) : Prints AgentText Agent.tokens (fun _ => True) agent := by
  intro ks rest
  constructor
  · rintro ⟨⟩ <;> exact ⟨rfl, trivial⟩
  · rintro ⟨rfl, -⟩
    cases agent with
    | none => exact .none
    | docker image => exact .docker

theorem prints_bool (b : Bool) :
    Prints BoolText (fun b => [TokenKind.bool b]) (fun _ => True) b := by
  intro ks rest
  constructor
  · rintro ⟨⟩
    exact ⟨rfl, trivial⟩
  · rintro ⟨rfl, -⟩
    exact .bool

theorem prints_param (param : Param) : Prints ParamText Param.tokens (fun _ => True) param := by
  intro ks rest
  constructor
  · rintro ⟨⟩
    exact ⟨rfl, trivial⟩
  · rintro ⟨rfl, -⟩
    exact .param

theorem prints_nextParam (param : Param) :
    Prints NextParamText (fun param => .comma :: param.tokens) (fun _ => True) param := by
  intro ks rest
  constructor
  · rintro ⟨text⟩
    obtain ⟨rfl, -⟩ := (prints_param param _ _).mp text
    exact ⟨rfl, trivial⟩
  · rintro ⟨rfl, -⟩
    exact .next ((prints_param param _ _).mpr ⟨rfl, trivial⟩)

/-- The grammar has no step with parameters and none of them. -/
def Step.Complete : Step → Prop
  | .single _ _ => True
  | .multi _ params => params ≠ []

theorem prints_step (step : Step) : Prints StepText Step.tokens Step.Complete step := by
  intro ks rest
  have more {ks : List TokenKind} {params : List Param} :=
    @star_iff _ _ _ _ params ks rest fun param _ => prints_nextParam param
  constructor
  · rintro (_ | ⟨first, others⟩)
    · exact ⟨rfl, trivial⟩
    · obtain ⟨rfl, -⟩ := (prints_param _ _ _).mp first
      obtain ⟨rfl, -⟩ := more.mp others
      exact ⟨by simp [Step.tokens], by simp [Step.Complete]⟩
  · rintro ⟨rfl, complete⟩
    match step, complete with
    | .single command value, _ => exact .single
    | .multi command (param :: params), _ =>
      refine .multi ((prints_param _ _ _).mpr ⟨?_, trivial⟩) (more.mpr ⟨rfl, by simp⟩)
      simp

/-- What holds at every depth holds of the outer stages and below each of them. -/
theorem forall_among_iff {P : Stage → Prop} {stages : List Stage} :
    (∀ stage, Among stage stages → P stage) ↔
      ∀ outer ∈ stages, P outer ∧ ∀ stage, Among stage outer.parallel → P stage := by
  constructor
  · intro all outer mem
    exact ⟨all _ (.here mem), fun _ inner => all _ (.within mem inner)⟩
  · rintro each _ (mem | ⟨mem, inner⟩)
    · exact (each _ mem).1
    · exact (each _ mem).2 _ inner

def Stage.StepsComplete (stage : Stage) : Prop := ∀ step ∈ stage.steps, step.Complete

def Stage.Complete (stage : Stage) : Prop :=
  stage.StepsComplete ∧ ∀ inner, Among inner stage.parallel → inner.StepsComplete

theorem allTokens_eq_flatMap (stages : List Stage) :
    Stage.allTokens stages = stages.flatMap Stage.tokens := by
  induction stages with
  | nil => rfl
  | cons stage stages ih => simp [Stage.allTokens, ih]

theorem stage_tokens_ne_nil (stage : Stage) : stage.tokens ≠ [] := by
  cases stage
  simp [Stage.tokens]

theorem step_tokens_ne_nil (step : Step) : step.tokens ≠ [] := by
  unfold Step.tokens
  split <;> simp

/-- The parts of a stage, one behind the other. -/
theorem stageText_iff {stage : Stage} :
    StageText ks stage rest ↔ ∃ ks₁ ks₂ ks₃ ks₄,
      ks = .keyword .stage :: .leftParen :: .string stage.name :: .rightParen :: .leftBrace :: ks₁ ∧
      Optionally .agent AgentText ks₁ stage.agent ks₂ ∧
      (∃ steps, steps.getD [] = stage.steps ∧ Optionally .steps (Block StepText) ks₂ steps ks₃) ∧
      Optionally .failFast BoolText ks₃ stage.failFast ks₄ ∧
      ∃ parallel, parallel.getD [] = stage.parallel ∧
        Optionally .parallel (Block StageText) ks₄ parallel (.rightBrace :: rest) := by
  constructor
  · rintro ⟨agentText, stepsText, failFastText, parallelText⟩
    exact ⟨_, _, _, _, rfl, agentText, ⟨_, rfl, stepsText⟩, failFastText, _, rfl, parallelText⟩
  · cases stage with
    | mk name agent steps failFast parallel =>
      rintro ⟨_, _, _, _, rfl, agentText, ⟨_, rfl, stepsText⟩, failFastText, _, rfl, parallelText⟩
      exact .stage agentText stepsText failFastText parallelText

mutual

theorem prints_stage (stage : Stage) : Prints StageText Stage.tokens Stage.Complete stage := by
  cases stage with
  | mk name agent steps failFast parallel =>
    intro ks rest
    rw [stageText_iff]
    simp only [optionally_iff fun agent _ => prints_agent agent,
      optionalBlock_iff (fun step _ => prints_step step) step_tokens_ne_nil,
      optionally_iff fun b _ => prints_bool b,
      optionalBlock_iff (prints_stages parallel) stage_tokens_ne_nil]
    constructor
    · rintro ⟨_, _, _, _, rfl, ⟨rfl, -⟩, ⟨rfl, complete⟩, ⟨rfl, -⟩, rfl, inner⟩
      refine ⟨?_, complete, forall_among_iff.mpr inner⟩
      simp [Stage.tokens, allTokens_eq_flatMap]
    · rintro ⟨rfl, complete, inner⟩
      refine ⟨_, _, _, _, ?_, ⟨rfl, by simp⟩, ⟨rfl, complete⟩, ⟨rfl, by simp⟩, rfl,
        forall_among_iff.mp inner⟩
      simp [Stage.tokens, allTokens_eq_flatMap]

theorem prints_stages (stages : List Stage) :
    ∀ stage ∈ stages, Prints StageText Stage.tokens Stage.Complete stage := by
  cases stages with
  | nil => simp
  | cons first rest => exact List.forall_mem_cons.mpr ⟨prints_stage first, prints_stages rest⟩

end

theorem sentence_iff {p : Pipeline} :
    Sentence ks p ↔
      ks = p.tokens ∧ p.stages ≠ [] ∧ ∀ stage, Among stage p.stages → stage.StepsComplete := by
  obtain ⟨agent, stages⟩ := p
  rw [forall_among_iff]
  constructor
  · rintro ⟨agentText, stagesText⟩
    obtain ⟨rfl, -⟩ := (prints_agent _ _ _).mp agentText
    obtain ⟨some_, inner, complete⟩ := (block_iff (prints_stages stages)).mp stagesText
    refine ⟨?_, some_, complete⟩
    simp [inner, Pipeline.tokens, allTokens_eq_flatMap]
  · rintro ⟨rfl, some_, complete⟩
    refine .pipeline ((prints_agent _ _ _).mpr ⟨rfl, trivial⟩)
      ((block_iff (prints_stages stages)).mpr ⟨some_, ?_, complete⟩)
    simp [allTokens_eq_flatMap]

/-! ### Well-formed pipelines -/

def Agent.Quotable (agent : Agent) : Prop := ∀ image, agent = .docker image → Script.Quotable image

structure Param.Sound (param : Param) : Prop where
  key : IsName param.key
  value : Quotable param.value

/-- A step with parameters has at least one. -/
def Step.Sound : Step → Prop
  | single command value => IsName command ∧ Script.Quotable value
  | multi command params => IsName command ∧ params ≠ [] ∧ ∀ param ∈ params, param.Sound

/-- What a stage needs, its branches aside. -/
structure Stage.Sound (stage : Stage) : Prop where
  named : Named stage
  name : Script.Quotable stage.name
  agent : ∀ agent ∈ stage.agent, agent.Quotable
  steps : ∀ step ∈ stage.steps, step.Sound

/-- The grammar has words for the pipeline. -/
structure Pipeline.WellFormed (p : Pipeline) : Prop where
  agent : p.agent.Quotable
  some_stage : p.stages ≠ []
  stages : ∀ stage, Among stage p.stages → stage.Sound

/-! ### Which pipelines can be spelled -/

theorem spellable_agent {agent : Agent} :
    (∀ kind ∈ agent.tokens, Spellable kind) ↔ agent.Quotable := by
  cases agent <;> simp [Agent.tokens, Agent.Quotable]

theorem spellable_param {param : Param} :
    (∀ kind ∈ param.tokens, Spellable kind) ↔ param.Sound := by
  simp only [Param.tokens, List.forall_mem_cons, spellable_ident, spellable_colon,
    spellable_string]
  constructor
  · rintro ⟨key, -, value, -⟩
    exact ⟨key, value⟩
  · rintro ⟨key, value⟩
    exact ⟨key, trivial, value, by simp⟩

theorem spellable_step {step : Step} :
    (∀ kind ∈ step.tokens, Spellable kind) ∧ step.Complete ↔ step.Sound := by
  match step with
  | .single command value => simp [Step.tokens, Step.Complete, Step.Sound]
  | .multi command [] => simp [Step.Complete, Step.Sound]
  | .multi command (param :: params) =>
    simp only [Step.tokens, Step.Complete, Step.Sound, List.forall_mem_cons, List.forall_mem_append,
      List.forall_mem_flatMap, spellable_ident, spellable_comma, spellable_param]
    simp

theorem spellable_blockTokens {word : Keyword} {tokens : List TokenKind} :
    (∀ kind ∈ Stage.blockTokens word tokens, Spellable kind) ↔ ∀ kind ∈ tokens, Spellable kind := by
  cases tokens with
  | nil => rfl
  | cons kind tokens =>
    simp only [Stage.blockTokens, List.cons_append, List.forall_mem_cons, List.forall_mem_append]
    simp

theorem spellable_optionTokens {α : Type} {word : Keyword} {print : α → List TokenKind}
    {o : Option α} :
    (∀ kind ∈ Stage.optionTokens word print o, Spellable kind) ↔
      ∀ a ∈ o, ∀ kind ∈ print a, Spellable kind := by
  cases o <;> simp [Stage.optionTokens]

/-- What a stage itself is written with can be spelled. -/
structure Stage.Spellable (stage : Stage) : Prop where
  name : Script.Quotable stage.name
  agent : ∀ agent ∈ stage.agent, agent.Quotable
  steps : ∀ step ∈ stage.steps, ∀ kind ∈ step.tokens, Script.Spellable kind

mutual

theorem spellable_stage (stage : Stage) :
    (∀ kind ∈ stage.tokens, Spellable kind) ↔
      stage.Spellable ∧ ∀ inner, Among inner stage.parallel → inner.Spellable := by
  cases stage with
  | mk name agent steps failFast parallel =>
    have branches : (∀ branch ∈ parallel, ∀ kind ∈ branch.tokens, Spellable kind) ↔
        ∀ inner, Among inner parallel → inner.Spellable := by
      rw [forall_among_iff]
      exact forall₂_congr (spellable_stages parallel)
    simp only [Stage.tokens, List.forall_mem_append, List.forall_mem_cons, spellable_blockTokens,
      spellable_optionTokens, spellable_agent, allTokens_eq_flatMap, List.forall_mem_flatMap,
      branches, spellable_string]
    constructor
    · rintro ⟨⟨_, _, quotable, _⟩, agentSound, stepsSound, _, inner, _⟩
      exact ⟨⟨quotable, agentSound, stepsSound⟩, inner⟩
    · rintro ⟨⟨quotable, agentSound, stepsSound⟩, inner⟩
      exact ⟨by simpa using quotable, agentSound, stepsSound, by simp, inner, by simp⟩

theorem spellable_stages (stages : List Stage) :
    ∀ stage ∈ stages, (∀ kind ∈ stage.tokens, Spellable kind) ↔
      stage.Spellable ∧ ∀ inner, Among inner stage.parallel → inner.Spellable := by
  cases stages with
  | nil => simp
  | cons first rest =>
    exact List.forall_mem_cons.mpr ⟨spellable_stage first, spellable_stages rest⟩

end

/-- A pipeline is well formed exactly if its tokens are a sentence that can be spelled, and its
stages have names. -/
theorem wellFormed_iff {p : Pipeline} :
    p.WellFormed ↔ (∀ kind ∈ p.tokens, Spellable kind) ∧ Sentence p.tokens p ∧
      ∀ stage, Among stage p.stages → Named stage := by
  have stages : (∀ stage ∈ p.stages, ∀ kind ∈ stage.tokens, Spellable kind) ↔
      ∀ stage, Among stage p.stages → stage.Spellable := by
    rw [forall_among_iff]
    exact forall₂_congr (spellable_stages p.stages)
  simp only [sentence_iff, Pipeline.tokens, List.forall_mem_append, List.forall_mem_cons,
    spellable_agent, allTokens_eq_flatMap, List.forall_mem_flatMap, stages, true_and]
  constructor
  · rintro ⟨agent, some_, sound⟩
    refine ⟨⟨by simp, agent, by simp, by simp, ?_, by simp⟩, ⟨some_, ?_⟩, ?_⟩
    · intro stage among
      obtain ⟨_, name, agent, steps⟩ := sound stage among
      exact ⟨name, agent, fun step mem => (spellable_step.mpr (steps step mem)).1⟩
    · exact fun stage among step mem => (spellable_step.mpr ((sound stage among).steps step mem)).2
    · exact fun stage among => (sound stage among).named
  · rintro ⟨⟨-, agent, -, -, spellable, -⟩, ⟨some_, complete⟩, named⟩
    refine ⟨agent, some_, fun stage among => ?_⟩
    obtain ⟨name, agent, steps⟩ := spellable stage among
    exact ⟨named stage among, name, agent,
      fun step mem => spellable_step.mp ⟨steps step mem, complete stage among step mem⟩⟩

/-! ### Reading what is written -/

/-- A source in which a pipeline is written. -/
def Pipeline.WrittenIn (p : Pipeline) (source : String) : Prop :=
  ∃ lead text, source.toList = lead ++ text ∧ Filler lead ∧ Spaced p.tokens text

theorem Pipeline.WrittenIn.tokenized {p : Pipeline} {source : String} (written : p.WrittenIn source) :
    ∃ ts, tokenize source = .ok ts ∧ kinds ts = p.tokens := by
  obtain ⟨lead, text, split, filled, spaced⟩ := written
  obtain ⟨ls, made, same⟩ := spaced.made
  obtain ⟨ls', made', same'⟩ := filled.made made
  exact tokenize_kinds.mpr ⟨ls', split ▸ made', same'.trans same⟩

theorem wellFormed_of_parse {source : String} {p : Pipeline} (h : parse source = .ok p) :
    p.WellFormed := by
  obtain ⟨ts, tokenized, text, named⟩ := parse_eq_ok.mp h
  obtain ⟨ls, made, same⟩ := tokenize_kinds.mp ⟨ts, tokenized, rfl⟩
  have spelled := (sentence_iff.mp text).1
  rw [spelled] at same text
  exact wellFormed_iff.mpr ⟨same ▸ made.spellable, text, named⟩

theorem parse_of_written {source : String} {p : Pipeline} (sound : p.WellFormed)
    (written : p.WrittenIn source) : parse source = .ok p := by
  obtain ⟨ts, tokenized, same⟩ := written.tokenized
  obtain ⟨_, text, named⟩ := wellFormed_iff.mp sound
  exact parse_eq_ok.mpr ⟨ts, tokenized, same ▸ text, named⟩

theorem exists_writtenIn {p : Pipeline} (sound : p.WellFormed) : ∃ source, p.WrittenIn source := by
  obtain ⟨spellable, -⟩ := wellFormed_iff.mp sound
  obtain ⟨text, spaced⟩ := exists_spaced spellable (by simp [Pipeline.tokens])
  exact ⟨String.ofList text, [], text, by simp, .nil, spaced⟩

/-- Scripts and well-formed pipelines: whatever is read is well formed, and a well-formed pipeline
is read back from every source in which it is written, whichever gaps and quotes are chosen. There
is such a source for each of them. -/
theorem written_scripts_are_read_back :
    (∀ source p, parse source = .ok p → p.WellFormed) ∧
    (∀ p source, p.WellFormed → p.WrittenIn source → parse source = .ok p) ∧
    ∀ p : Pipeline, p.WellFormed → ∃ source, p.WrittenIn source :=
  ⟨fun _ _ => wellFormed_of_parse, fun _ _ => parse_of_written, fun _ => exists_writtenIn⟩

namespace Annotated

/-- A comment stands close to a string, two slashes and a brace stand in one, and each string has
the other quote inside. -/
def source : String :=
  "pipeline \x7b agent none // on the host\n stages \x7b stage ( \"it's\" ) \x7b steps \x7b\n"
    ++ "sh 'echo \"\x7d\" // x'// said\n\x7d \x7d \x7d \x7d"

def pipeline : Pipeline :=
  ⟨.none, [{ name := "it's", steps := [.single "sh" "echo \"\x7d\" // x"] }]⟩

theorem isName_sh : IsName "sh" where
  word := ⟨'s', ['h'], by decide, by decide, List.all_eq_true.mp (by decide)⟩
  not_keyword k := by cases k <;> decide
  not_bool := by decide

theorem wellFormed : pipeline.WellFormed where
  agent := by simp [Agent.Quotable, pipeline]
  some_stage := by simp [pipeline]
  stages := by
    refine forall_among_iff.mpr (List.forall_mem_singleton.mpr ⟨?_, forall_among_iff.mpr nofun⟩)
    refine ⟨⟨'i', by decide, by decide⟩, .inr (by decide), nofun, ?_⟩
    exact List.forall_mem_singleton.mpr ⟨isName_sh, .inl (by decide)⟩

theorem written : pipeline.WrittenIn source := by
  have space : Filler [' '] := .blank (by decide) .nil
  have newline : Filler ['\n'] := .blank (by decide) .nil
  have host : Filler (' ' :: '/' :: '/' :: (" on the host".toList ++ '\n' :: [' '])) :=
    .blank (by decide) (.comment (by decide) space)
  have said : Filler ('/' :: '/' :: (" said".toList ++ '\n' :: [])) := .comment (by decide) .nil
  have spaced : Spaced pipeline.tokens _ :=
    .cons rfl space (by simp) <| .cons rfl space (by simp) <| .cons rfl space (by simp) <|
    .cons rfl host (by simp) <| .cons rfl space (by simp) <| .cons rfl space (by simp) <|
    .cons rfl space (by simp) <| .cons rfl space (by simp) <|
    .cons ⟨'"', .inr rfl, by decide, rfl⟩ space (by simp) <| .cons rfl space (by simp) <|
    .cons rfl space (by simp) <| .cons rfl space (by simp) <| .cons rfl newline (by simp) <|
    .cons ⟨isName_sh, rfl⟩ space (by simp) <|
    .cons ⟨'\'', .inl rfl, by decide, rfl⟩ said (by simp) <|
    .cons rfl space (by simp) <| .cons rfl space (by simp) <| .cons rfl space (by simp) <|
    .last rfl .nil
  refine ⟨[], _, ?_, .nil, spaced⟩
  decide +kernel

theorem source_is_read : parse source = .ok pipeline ∧ ∃ other, pipeline.WrittenIn other :=
  ⟨written_scripts_are_read_back.2.1 pipeline source wellFormed written,
    written_scripts_are_read_back.2.2 pipeline wellFormed⟩

end Annotated

end PipelineRunner
