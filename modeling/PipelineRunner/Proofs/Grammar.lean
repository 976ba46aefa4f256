import PipelineRunner.Script.Parser

/-! The grammar of scripts, and that reading keeps to it in both directions. A derivation takes a
text off the front of a list of tokens: `StageText ks stage rest` says that a stage stands at the
head of `ks`, and that `rest` is left behind it. Reading looks one or two tokens ahead where a
derivation may choose; that each choice is forced is what the two directions come to. -/

namespace PipelineRunner.Script

variable {α β : Type}

/-- What some tokens are, wherever they stand. -/
def kinds (ts : List Token) : List TokenKind := ts.map (·.kind)

/-- A form of texts: the tokens to come, the value that they describe, the tokens behind it. -/
abbrev Form (α : Type) := List TokenKind → α → List TokenKind → Prop

inductive AgentText : List TokenKind → Agent → List TokenKind → Prop where
  | none {rest : List TokenKind} : AgentText (.keyword .none :: rest) .none rest
  | docker {image : String} {rest : List TokenKind} :
      AgentText (.leftBrace :: .keyword .docker :: .string image :: .rightBrace :: rest)
        (.docker image) rest

inductive ParamText : List TokenKind → Param → List TokenKind → Prop where
  | param {key value : String} {rest : List TokenKind} :
      ParamText (.ident key :: .colon :: .string value :: rest) ⟨key, value⟩ rest

/-- A parameter behind another one. -/
inductive NextParamText : List TokenKind → Param → List TokenKind → Prop where
  | next {param : Param} {ks rest : List TokenKind} (text : ParamText ks param rest) :
      NextParamText (.comma :: ks) param rest

inductive BoolText : List TokenKind → Bool → List TokenKind → Prop where
  | bool {b : Bool} {rest : List TokenKind} : BoolText (.bool b :: rest) b rest

/-- Any number of texts of a form. -/
inductive Star (form : Form α) : List TokenKind → List α → List TokenKind → Prop where
  | nil {rest : List TokenKind} : Star form rest [] rest
  | cons {ks ks' rest : List TokenKind} {a : α} {as : List α} (first : form ks a ks')
      (others : Star form ks' as rest) : Star form ks (a :: as) rest

/-- One or more texts of a form in braces. -/
inductive Block (form : Form α) : List TokenKind → List α → List TokenKind → Prop where
  | block {ks ks' rest : List TokenKind} {a : α} {as : List α} (first : form ks a ks')
      (others : Star form ks' as (.rightBrace :: rest)) : Block form (.leftBrace :: ks) (a :: as) rest

/-- A text that a word announces, or nothing. -/
inductive Optionally (word : Keyword) (form : Form α) :
    List TokenKind → Option α → List TokenKind → Prop where
  | absent {rest : List TokenKind} : Optionally word form rest none rest
  | present {ks rest : List TokenKind} {a : α} (text : form ks a rest) :
      Optionally word form (.keyword word :: ks) (some a) rest

inductive StepText : List TokenKind → Step → List TokenKind → Prop where
  | single {command value : String} {rest : List TokenKind} :
      StepText (.ident command :: .string value :: rest) (.single command value) rest
  | multi {command : String} {param : Param} {params : List Param} {ks ks' rest : List TokenKind}
      (first : ParamText ks param ks') (others : Star NextParamText ks' params rest) :
      StepText (.ident command :: ks) (.multi command (param :: params)) rest

/-- The parts of a stage may be missing, but they come in their order. -/
inductive StageText : List TokenKind → Stage → List TokenKind → Prop where
  | stage {name : String} {agent : Option Agent} {steps : Option (List Step)}
      {failFast : Option Bool} {parallel : Option (List Stage)}
      {ks ks₁ ks₂ ks₃ rest : List TokenKind}
      (agentText : Optionally .agent AgentText ks agent ks₁)
      (stepsText : Optionally .steps (Block StepText) ks₁ steps ks₂)
      (failFastText : Optionally .failFast BoolText ks₂ failFast ks₃)
      (parallelText : Optionally .parallel (Block StageText) ks₃ parallel (.rightBrace :: rest)) :
      StageText (.keyword .stage :: .leftParen :: .string name :: .rightParen :: .leftBrace :: ks)
        ⟨name, agent, steps.getD [], failFast, parallel.getD []⟩ rest

inductive PipelineText : List TokenKind → Pipeline → List TokenKind → Prop where
  | pipeline {agent : Agent} {stages : List Stage} {ks ks' rest : List TokenKind}
      (agentText : AgentText ks agent (.keyword .stages :: ks'))
      (stagesText : Block StageText ks' stages (.rightBrace :: rest)) :
      PipelineText (.keyword .pipeline :: .leftBrace :: .keyword .agent :: ks)
        ⟨agent, stages⟩ rest

/-- Whole scripts. -/
def Sentence (ks : List TokenKind) (p : Pipeline) : Prop := PipelineText ks p []

/-! ### Single tokens -/

theorem bind_eq_ok {x : Except SyntaxError α} {f : α → Except SyntaxError β} {b : β} :
    x >>= f = .ok b ↔ ∃ a, x = .ok a ∧ f a = .ok b := by
  cases x <;> simp [bind, Except.bind]

theorem map_eq_ok {x : Except SyntaxError α} {f : α → β} {b : β} :
    x.map f = .ok b ↔ ∃ a, x = .ok a ∧ f a = b := by
  cases x <;> simp [Except.map]

variable {ts rest : List Token} {fuel : Nat} {ks ks' : List TokenKind}

@[simp] theorem kinds_cons (kind : TokenKind) (p : Position) (ts : List Token) :
    kinds (⟨kind, p⟩ :: ts) = kind :: kinds ts := rfl

theorem kinds_eq_cons {kind : TokenKind} :
    kinds ts = kind :: ks ↔ ∃ p more, ts = ⟨kind, p⟩ :: more ∧ kinds more = ks := by
  cases ts with
  | nil => simp [kinds]
  | cons token more =>
    obtain ⟨kind', p⟩ := token
    simp only [kinds_cons, List.cons.injEq, Token.mk.injEq]
    grind

theorem readToken_eq_ok {expected : Expectation} {accept : TokenKind → Option α} {a : α} :
    readToken expected accept ts = .ok (a, rest) ↔
      ∃ kind p, ts = ⟨kind, p⟩ :: rest ∧ accept kind = some a := by
  cases ts with
  | nil => simp [readToken]
  | cons token more =>
    obtain ⟨kind, p⟩ := token
    simp only [readToken]
    split <;> rename_i h <;> simp [h]
    grind

theorem readToken_eq_ok_of {expected : Expectation} {accept : TokenKind → Option α}
    {form : α → TokenKind} (accepts : ∀ kind a, accept kind = some a ↔ kind = form a) {a : α} :
    readToken expected accept ts = .ok (a, rest) ↔ ∃ p, ts = ⟨form a, p⟩ :: rest := by
  simp [readToken_eq_ok, accepts]

theorem expect_eq_ok {kind : TokenKind} :
    expect kind ts = .ok rest ↔ ∃ p, ts = ⟨kind, p⟩ :: rest := by
  simp [expect, map_eq_ok, readToken_eq_ok]

theorem expect_self (kind : TokenKind) (p : Position) (ts : List Token) :
    expect kind (⟨kind, p⟩ :: ts) = .ok ts :=
  expect_eq_ok.mpr ⟨p, rfl⟩

theorem readString_eq_ok {expected : Expectation} {s : String} :
    readString expected ts = .ok (s, rest) ↔ ∃ p, ts = ⟨.string s, p⟩ :: rest :=
  readToken_eq_ok_of fun kind s => by cases kind <;> simp

theorem readIdent_eq_ok {expected : Expectation} {name : String} :
    readIdent expected ts = .ok (name, rest) ↔ ∃ p, ts = ⟨.ident name, p⟩ :: rest :=
  readToken_eq_ok_of fun kind name => by cases kind <;> simp

theorem readBool_eq_ok {b : Bool} :
    readBool ts = .ok (b, rest) ↔ ∃ p, ts = ⟨.bool b, p⟩ :: rest :=
  readToken_eq_ok_of fun kind b => by cases kind <;> simp

/-! ### Reading keeps to the grammar -/

theorem readAgent_sound {agent : Agent} (h : readAgent ts = .ok (agent, rest)) :
    AgentText (kinds ts) agent (kinds rest) := by
  simp only [readAgent, bind_eq_ok, Prod.exists] at h
  obtain ⟨isDocker, ts₁, first, h⟩ := h
  obtain ⟨kind, p, rfl, accepted⟩ := readToken_eq_ok.mp first
  split at h
  next docker =>
    simp only [bind_eq_ok, Prod.exists, expect_eq_ok, readString_eq_ok, Except.ok.injEq,
      Prod.mk.injEq] at h
    obtain ⟨_, ⟨_, rfl⟩, image, _, ⟨_, rfl⟩, _, ⟨_, rfl⟩, rfl, rfl⟩ := h
    split at accepted <;> simp_all
    exact .docker
  next host =>
    cases h
    split at accepted <;> simp_all
    exact .none

theorem readParam_sound {param : Param} (h : readParam ts = .ok (param, rest)) :
    ParamText (kinds ts) param (kinds rest) := by
  have read : (do
      let key ← readIdent .parameter ts
      let ts ← expect .colon key.2
      let value ← readString .parameterValue ts
      .ok (⟨key.1, value.1⟩, value.2)) = Except.ok (param, rest) := by
    unfold readParam at h
    dsimp only at h
    split at h
    · cases h
    · split at h
      · cases h
      · exact h
    · exact h
  simp only [bind_eq_ok, Prod.exists, readIdent_eq_ok, expect_eq_ok, readString_eq_ok,
    Except.ok.injEq, Prod.mk.injEq] at read
  obtain ⟨key, _, ⟨_, rfl⟩, _, ⟨_, rfl⟩, value, _, ⟨_, rfl⟩, rfl, rfl⟩ := read
  exact .param

theorem readMoreParams_sound {params : List Param}
    (h : readMoreParams fuel ts = .ok (params, rest)) :
    Star NextParamText (kinds ts) params (kinds rest) := by
  induction fuel generalizing ts params with
  | zero =>
    cases h
    exact .nil
  | succ fuel ih =>
    unfold readMoreParams at h
    split at h
    next same =>
      cases same
      simp only [bind_eq_ok, Prod.exists, Except.ok.injEq, Prod.mk.injEq] at h
      obtain ⟨param, ts₁, first, params, ts₂, others, rfl, rfl⟩ := h
      exact .cons (.next (readParam_sound first)) (ih others)
    next =>
      cases h
      exact .nil

theorem readStep_sound {step : Step} (h : readStep ts = .ok (step, rest)) :
    StepText (kinds ts) step (kinds rest) := by
  simp only [readStep, bind_eq_ok, Prod.exists, readIdent_eq_ok] at h
  obtain ⟨command, ts₁, ⟨_, rfl⟩, h⟩ := h
  split at h
  next =>
    cases h
    exact .single
  next =>
    simp only [bind_eq_ok, Prod.exists, Except.ok.injEq, Prod.mk.injEq] at h
    obtain ⟨param, ts₂, first, params, ts₃, others, rfl, rfl⟩ := h
    exact .multi (readParam_sound first) (readMoreParams_sound others)

theorem readMoreSteps_sound {steps : List Step} (h : readMoreSteps fuel ts = .ok (steps, rest)) :
    Star StepText (kinds ts) steps (kinds rest) := by
  induction fuel generalizing ts steps with
  | zero =>
    cases h
    exact .nil
  | succ fuel ih =>
    unfold readMoreSteps at h
    split at h
    next same =>
      cases same
      simp only [bind_eq_ok, Prod.exists, Except.ok.injEq, Prod.mk.injEq] at h
      obtain ⟨step, ts₁, first, steps, ts₂, others, rfl, rfl⟩ := h
      exact .cons (readStep_sound first) (ih others)
    next =>
      cases h
      exact .nil

theorem readSteps_sound {steps : List Step} (h : readSteps ts = .ok (steps, rest)) :
    Block StepText (kinds ts) steps (kinds rest) := by
  simp only [readSteps, bind_eq_ok, Prod.exists, expect_eq_ok, Except.ok.injEq, Prod.mk.injEq] at h
  obtain ⟨_, ⟨_, rfl⟩, step, _, first, steps, _, others, _, ⟨_, rfl⟩, rfl, rfl⟩ := h
  exact .block (readStep_sound first) (readMoreSteps_sound others)

/-- An optional part is read as one; `wrap` tells how its absence is understood. -/
theorem readOptional_sound {word : Keyword} (form : Form α) (wrap : Option α → β)
    {read : List Token → Except SyntaxError (β × List Token)} {b : β}
    (sound : ∀ ts b rest, read ts = .ok (b, rest) →
      ∃ a, wrap (some a) = b ∧ form (kinds ts) a (kinds rest))
    (h : readOptional word (wrap none) read ts = .ok (b, rest)) :
    ∃ o, wrap o = b ∧ Optionally word form (kinds ts) o (kinds rest) := by
  unfold readOptional at h
  split at h
  next =>
    cases h
    exact ⟨none, rfl, .absent⟩
  next token more =>
    obtain ⟨kind, p⟩ := token
    split at h
    next announced =>
      obtain rfl : kind = .keyword word := announced
      obtain ⟨a, rfl, text⟩ := sound _ _ _ h
      exact ⟨some a, rfl, .present text⟩
    next =>
      cases h
      exact ⟨none, rfl, .absent⟩

/-- An optional part that reads as a value of its own. -/
theorem readOptional_map_sound {word : Keyword} {form : Form α} {o : Option α}
    {read : List Token → Except SyntaxError (α × List Token)}
    (sound : ∀ ts a rest, read ts = .ok (a, rest) → form (kinds ts) a (kinds rest))
    (h : readOptional word none (fun ts => (read ts).map fun (a, rest) => (some a, rest)) ts =
      .ok (o, rest)) : Optionally word form (kinds ts) o (kinds rest) := by
  obtain ⟨o, rfl, text⟩ := readOptional_sound form id (fun ts o rest h => by
    obtain ⟨⟨a, more⟩, read, he⟩ := map_eq_ok.mp h
    cases he
    exact ⟨a, rfl, sound _ _ _ read⟩) h
  exact text

/-- Reading stages with so much fuel keeps to the grammar. -/
def StagesSound (fuel : Nat) : Prop :=
  (∀ ts stage rest, readStage fuel ts = .ok (stage, rest) →
    StageText (kinds ts) stage (kinds rest)) ∧
  (∀ ts stages rest, readStageBlock fuel ts = .ok (stages, rest) →
    Block StageText (kinds ts) stages (kinds rest)) ∧
  ∀ ts stages rest, readMoreStages fuel ts = .ok (stages, rest) →
    Star StageText (kinds ts) stages (kinds rest)

theorem stagesSound (fuel : Nat) : StagesSound fuel := by
  induction fuel with
  | zero =>
    refine ⟨fun _ _ _ h => ?_, fun _ _ _ h => ?_, fun _ _ _ h => ?_⟩
    · cases h
    · cases h
    · cases h
      exact .nil
  | succ fuel ih =>
    obtain ⟨stage, block, more⟩ := ih
    refine ⟨fun ts s rest h => ?_, fun ts stages rest h => ?_, fun ts stages rest h => ?_⟩
    · simp only [readStage, bind_eq_ok, Prod.exists, expect_eq_ok, readString_eq_ok,
        Except.ok.injEq, Prod.mk.injEq] at h
      obtain ⟨_, ⟨_, rfl⟩, _, ⟨_, rfl⟩, name, _, ⟨_, rfl⟩, _, ⟨_, rfl⟩, _, ⟨_, rfl⟩, agent, _,
        agentRead, steps, _, stepsRead, failFast, _, failFastRead, parallel, _, parallelRead,
        _, ⟨_, rfl⟩, rfl, rfl⟩ := h
      have agentText := readOptional_map_sound (fun _ _ _ => readAgent_sound) agentRead
      obtain ⟨steps, rfl, stepsText⟩ := readOptional_sound (Block StepText) (·.getD [])
        (fun _ steps _ h => ⟨steps, rfl, readSteps_sound h⟩) stepsRead
      have failFastText : Optionally .failFast BoolText _ failFast _ :=
        readOptional_map_sound (fun _ _ _ h => by
          obtain ⟨_, rfl⟩ := readBool_eq_ok.mp h
          exact .bool) failFastRead
      obtain ⟨parallel, rfl, parallelText⟩ := readOptional_sound (Block StageText) (·.getD [])
        (fun _ stages _ h => ⟨stages, rfl, block _ _ _ h⟩) parallelRead
      exact .stage agentText stepsText failFastText parallelText
    · simp only [readStageBlock, bind_eq_ok, Prod.exists, expect_eq_ok, Except.ok.injEq,
        Prod.mk.injEq] at h
      obtain ⟨_, ⟨_, rfl⟩, first, _, firstRead, others, _, othersRead, _, ⟨_, rfl⟩, rfl, rfl⟩ := h
      exact .block (stage _ _ _ firstRead) (more _ _ _ othersRead)
    · unfold readMoreStages at h
      split at h
      next same =>
        cases same
        simp only [bind_eq_ok, Prod.exists, Except.ok.injEq, Prod.mk.injEq] at h
        obtain ⟨first, _, firstRead, others, _, othersRead, rfl, rfl⟩ := h
        exact .cons (stage _ _ _ firstRead) (more _ _ _ othersRead)
      next =>
        cases h
        exact .nil

theorem readPipeline_sound {p : Pipeline} (h : readPipeline ts = .ok p) :
    Sentence (kinds ts) p := by
  simp only [readPipeline, bind_eq_ok, Prod.exists, expect_eq_ok] at h
  obtain ⟨_, ⟨_, rfl⟩, _, ⟨_, rfl⟩, _, ⟨_, rfl⟩, agent, _, agentRead, _, ⟨_, rfl⟩, stages, _,
    stagesRead, rest, ⟨_, rfl⟩, h⟩ := h
  cases rest with
  | nil =>
    cases h
    exact .pipeline (readAgent_sound agentRead) ((stagesSound _).2.1 _ _ _ stagesRead)
  | cons token more => cases h

/-! ### Reading follows every derivation -/

/-- Something has been read from these tokens, and some others are left. -/
def Reads (result : Except SyntaxError (α × List Token)) (ts : List Token) (a : α)
    (ks : List TokenKind) : Prop :=
  ∃ rest, result = .ok (a, rest) ∧ kinds rest = ks ∧ rest.length < ts.length

theorem readAgent_complete {agent : Agent} (text : AgentText (kinds ts) agent ks) :
    Reads (readAgent ts) ts agent ks := by
  generalize hk : kinds ts = all at text
  cases text with
  | none =>
    obtain ⟨_, more, rfl, hk₁⟩ := kinds_eq_cons.mp hk
    exact ⟨more, rfl, hk₁, by simp⟩
  | docker =>
    obtain ⟨_, _, rfl, hk₁⟩ := kinds_eq_cons.mp hk
    obtain ⟨_, _, rfl, hk₂⟩ := kinds_eq_cons.mp hk₁
    obtain ⟨_, _, rfl, hk₃⟩ := kinds_eq_cons.mp hk₂
    obtain ⟨_, more, rfl, hk₄⟩ := kinds_eq_cons.mp hk₃
    exact ⟨more, rfl, hk₄, by simp only [List.length_cons]; omega⟩

theorem readBool_complete {b : Bool} (text : BoolText (kinds ts) b ks) :
    Reads (readBool ts) ts b ks := by
  generalize hk : kinds ts = all at text
  cases text with
  | bool =>
    obtain ⟨_, more, rfl, hk₁⟩ := kinds_eq_cons.mp hk
    exact ⟨more, rfl, hk₁, by simp⟩

theorem readParam_complete {param : Param} (text : ParamText (kinds ts) param ks) :
    Reads (readParam ts) ts param ks := by
  generalize hk : kinds ts = all at text
  cases text with
  | param =>
    obtain ⟨_, _, rfl, hk₁⟩ := kinds_eq_cons.mp hk
    obtain ⟨_, _, rfl, hk₂⟩ := kinds_eq_cons.mp hk₁
    obtain ⟨_, more, rfl, hk₃⟩ := kinds_eq_cons.mp hk₂
    exact ⟨more, rfl, hk₃, by simp only [List.length_cons]; omega⟩

theorem readMoreParams_nil (free : (kinds ts).head? ≠ some .comma) :
    readMoreParams fuel ts = .ok ([], ts) := by
  unfold readMoreParams
  split
  next => simp at free
  next => rfl

/-- Where no further comma follows, all parameters have been read. -/
theorem readMoreParams_complete {params : List Param}
    (text : Star NextParamText (kinds ts) params ks) (free : ks.head? ≠ some .comma)
    (enough : ts.length ≤ fuel) :
    ∃ rest, readMoreParams fuel ts = .ok (params, rest) ∧ kinds rest = ks ∧
      rest.length ≤ ts.length := by
  induction params generalizing ts fuel with
  | nil =>
    cases text
    exact ⟨ts, readMoreParams_nil free, rfl, (Nat.le_refl _)⟩
  | cons param params ih =>
    cases text with
    | cons first others =>
      generalize hk : kinds ts = all at first
      cases first with
      | next text =>
        obtain ⟨_, more, rfl, rfl⟩ := kinds_eq_cons.mp hk
        obtain ⟨rest, read, rfl, shorter⟩ := readParam_complete text
        simp only [List.length_cons] at enough
        obtain ⟨fuel, rfl⟩ : ∃ n, fuel = n + 1 := ⟨fuel - 1, by omega⟩
        obtain ⟨rest', readMore, hk', shorter'⟩ := ih others (show rest.length ≤ fuel by omega)
        refine ⟨rest', ?_, hk', by simp only [List.length_cons]; omega⟩
        simp [readMoreParams, read, readMore, bind, Except.bind]

theorem readStep_complete {step : Step} (text : StepText (kinds ts) step ks)
    (free : ks.head? ≠ some .comma) : Reads (readStep ts) ts step ks := by
  generalize hk : kinds ts = all at text
  cases text with
  | single =>
    obtain ⟨_, _, rfl, hk₁⟩ := kinds_eq_cons.mp hk
    obtain ⟨_, more, rfl, hk₂⟩ := kinds_eq_cons.mp hk₁
    exact ⟨more, rfl, hk₂, by simp only [List.length_cons]; omega⟩
  | @multi command param params _ _ _ first others =>
    obtain ⟨p, more, rfl, rfl⟩ := kinds_eq_cons.mp hk
    have named (value : String) (p : Position) (behind : List Token) :
        more ≠ ⟨.string value, p⟩ :: behind := by
      rintro rfl
      cases first
    obtain ⟨rest, read, rfl, shorter⟩ := readParam_complete first
    obtain ⟨rest', readMore, hk', shorter'⟩ := readMoreParams_complete others free (Nat.le_refl _)
    refine ⟨rest', ?_, hk', by simp only [List.length_cons]; omega⟩
    have word : readIdent .stepCommand (⟨.ident command, p⟩ :: more) = .ok (command, more) :=
      readIdent_eq_ok.mpr ⟨_, rfl⟩
    simp only [readStep, bind_eq_ok, Prod.exists]
    refine ⟨_, _, word, ?_⟩
    split
    next => exact absurd rfl (named _ _ _)
    next => simp [read, readMore, bind, Except.bind]

theorem readMoreSteps_nil (free : ∀ name, (kinds ts).head? ≠ some (.ident name)) :
    readMoreSteps fuel ts = .ok ([], ts) := by
  unfold readMoreSteps
  split
  next => simp at free
  next => rfl

theorem StepText.head? {step : Step} (text : StepText ks step ks') :
    ∃ name, ks.head? = some (.ident name) := by
  cases text <;> exact ⟨_, rfl⟩

theorem readMoreSteps_complete {steps : List Step} (text : Star StepText (kinds ts) steps ks)
    (behind : ks.head? = some .rightBrace) (enough : ts.length ≤ fuel) :
    ∃ rest, readMoreSteps fuel ts = .ok (steps, rest) ∧ kinds rest = ks ∧
      rest.length ≤ ts.length := by
  induction steps generalizing ts fuel with
  | nil =>
    cases text
    exact ⟨ts, readMoreSteps_nil (by simp [behind]), rfl, Nat.le_refl _⟩
  | cons step steps ih =>
    cases text with
    | @cons _ ks₁ _ _ _ first others =>
      obtain ⟨name, head⟩ := first.head?
      have free : ks₁.head? ≠ some .comma := by
        cases others with
        | nil => simp [behind]
        | cons second =>
          obtain ⟨_, head⟩ := second.head?
          simp [head]
      obtain ⟨rest, read, rfl, shorter⟩ := readStep_complete first free
      cases ts with
      | nil => simp at shorter
      | cons token more =>
        obtain ⟨kind, p⟩ := token
        obtain rfl : kind = .ident name := by simpa using head
        simp only [List.length_cons] at enough shorter
        obtain ⟨fuel, rfl⟩ : ∃ n, fuel = n + 1 := ⟨fuel - 1, by omega⟩
        obtain ⟨rest', readMore, hk', shorter'⟩ := ih others (show rest.length ≤ fuel by omega)
        refine ⟨rest', ?_, hk', by simp only [List.length_cons]; omega⟩
        simp [readMoreSteps, read, readMore, bind, Except.bind]

theorem readSteps_complete {steps : List Step} (text : Block StepText (kinds ts) steps ks) :
    Reads (readSteps ts) ts steps ks := by
  generalize hk : kinds ts = all at text
  cases text with
  | @block _ ks₁ _ _ _ first others =>
    obtain ⟨p, more, rfl, rfl⟩ := kinds_eq_cons.mp hk
    have free : ks₁.head? ≠ some .comma := by
      cases others with
      | nil => simp
      | cons second =>
        obtain ⟨_, head⟩ := second.head?
        simp [head]
    obtain ⟨rest, read, rfl, shorter⟩ := readStep_complete first free
    obtain ⟨rest', readMore, hk', shorter'⟩ := readMoreSteps_complete others rfl (Nat.le_refl _)
    obtain ⟨_, last, rfl, rfl⟩ := kinds_eq_cons.mp hk'
    simp only [List.length_cons] at shorter'
    refine ⟨last, ?_, rfl, by simp only [List.length_cons]; omega⟩
    simp only [readSteps, bind_eq_ok, Prod.exists]
    exact ⟨_, expect_self .., _, _, read, _, _, readMore, _, expect_self .., rfl⟩

/-! The optional parts of a stage come in one order, and each is announced by a word of its own;
so a part is missing exactly if some later word, or the closing brace, comes next. -/

/-- The words that may come next, or the closing brace. -/
def Ahead (words : List Keyword) (ks : List TokenKind) : Prop :=
  ks.head? = some .rightBrace ∨ ∃ word ∈ words, ks.head? = some (.keyword word)

theorem Ahead.before {form : Form α} {word : Keyword} {words : List Keyword} {o : Option α}
    (ahead : Ahead words ks') (text : Optionally word form ks o ks') :
    Ahead (word :: words) ks := by
  cases text with
  | absent =>
    rcases ahead with brace | ⟨later, among, head⟩
    · exact .inl brace
    · exact .inr ⟨later, .tail _ among, head⟩
  | present => exact .inr ⟨word, .head _, rfl⟩

theorem readOptional_complete {word : Keyword} {words : List Keyword} {form : Form α}
    (wrap : Option α → β) {read : List Token → Except SyntaxError (β × List Token)}
    {o : Option α} (text : Optionally word form (kinds ts) o ks) (ahead : Ahead words ks)
    (other : word ∉ words)
    (complete : ∀ a more, more.length < ts.length → form (kinds more) a ks →
      Reads (read more) more (wrap (some a)) ks) :
    ∃ rest, readOptional word (wrap none) read ts = .ok (wrap o, rest) ∧ kinds rest = ks ∧
      rest.length ≤ ts.length := by
  generalize hk : kinds ts = all at text
  cases text with
  | absent =>
    refine ⟨ts, ?_, hk, Nat.le_refl _⟩
    cases ts with
    | nil => rfl
    | cons token more =>
      have kept : token.kind ≠ .keyword word := by
        rintro same
        subst hk
        rcases ahead with brace | ⟨later, among, head⟩
        · simp [kinds, same] at brace
        · simp only [kinds, List.map_cons, same, List.head?_cons, Option.some.injEq,
            TokenKind.keyword.injEq] at head
          exact other (head ▸ among)
      simp [readOptional, kept]
  | present text =>
    obtain ⟨_, more, rfl, rfl⟩ := kinds_eq_cons.mp hk
    obtain ⟨rest, read, hk', shorter⟩ := complete _ more (by simp) text
    exact ⟨rest, by simpa [readOptional] using read, hk', by simp only [List.length_cons]; omega⟩

theorem Reads.map {result : Except SyntaxError (α × List Token)} {a : α} (f : α → β)
    (reads : Reads result ts a ks) :
    Reads (result.map fun (a, rest) => (f a, rest)) ts (f a) ks := by
  obtain ⟨rest, rfl, hk, shorter⟩ := reads
  exact ⟨rest, rfl, hk, shorter⟩

theorem readMoreStages_nil (behind : (kinds ts).head? = some .rightBrace) :
    readMoreStages fuel ts = .ok ([], ts) := by
  unfold readMoreStages
  split
  next => simp at behind
  next => rfl

/-- So much fuel lets stages be read wherever they stand. Behind the first stage of a block fuel
is left over, as a stage takes at least a token. -/
def StagesComplete (fuel : Nat) : Prop :=
  (∀ ts stage ks, ts.length ≤ fuel → StageText (kinds ts) stage ks →
    Reads (readStage fuel ts) ts stage ks) ∧
  (∀ ts stages ks, ts.length ≤ fuel → Block StageText (kinds ts) stages ks →
    Reads (readStageBlock fuel ts) ts stages ks) ∧
  ∀ ts stages ks, ts.length < fuel → Star StageText (kinds ts) stages ks →
    ks.head? = some .rightBrace →
    ∃ rest, readMoreStages fuel ts = .ok (stages, rest) ∧ kinds rest = ks ∧
      rest.length ≤ ts.length

theorem readStage_complete (block : ∀ ts stages ks, ts.length ≤ fuel →
      Block StageText (kinds ts) stages ks → Reads (readStageBlock fuel ts) ts stages ks)
    {stage : Stage} (enough : ts.length ≤ fuel + 1) (text : StageText (kinds ts) stage ks) :
    Reads (readStage (fuel + 1) ts) ts stage ks := by
  generalize hk : kinds ts = all at text
  cases text with
  | @stage name agent steps failFast parallel _ _ _ _ _ agentText stepsText failFastText
      parallelText =>
    obtain ⟨_, _, rfl, hk₁⟩ := kinds_eq_cons.mp hk
    obtain ⟨_, _, rfl, hk₂⟩ := kinds_eq_cons.mp hk₁
    obtain ⟨_, _, rfl, hk₃⟩ := kinds_eq_cons.mp hk₂
    obtain ⟨_, _, rfl, hk₄⟩ := kinds_eq_cons.mp hk₃
    obtain ⟨_, body, rfl, rfl⟩ := kinds_eq_cons.mp hk₄
    simp only [List.length_cons] at enough
    have atEnd : Ahead [] (.rightBrace :: ks) := .inl rfl
    have atParallel := atEnd.before parallelText
    have atFailFast := atParallel.before failFastText
    have atSteps := atFailFast.before stepsText
    obtain ⟨ts₁, agentRead, rfl, shorter₁⟩ := readOptional_complete id agentText atSteps
      (by decide) fun agent more _ text => (readAgent_complete text).map some
    obtain ⟨ts₂, stepsRead, rfl, shorter₂⟩ := readOptional_complete
      (·.getD []) stepsText atFailFast (by decide)
      fun steps more _ text => readSteps_complete text
    obtain ⟨ts₃, failFastRead, rfl, shorter₃⟩ := readOptional_complete id failFastText
      atParallel (by decide) fun b more _ text => (readBool_complete text).map some
    obtain ⟨_, parallelRead, hk₅, shorter₄⟩ := readOptional_complete
      (·.getD []) parallelText atEnd (by decide)
      fun stages more shorter text => block more stages _ (by omega) text
    obtain ⟨_, rest, rfl, rfl⟩ := kinds_eq_cons.mp hk₅
    simp only [List.length_cons] at shorter₄
    refine ⟨rest, ?_, rfl, by simp only [List.length_cons]; omega⟩
    simp only [readStage, bind_eq_ok, Prod.exists]
    exact ⟨_, expect_self .., _, expect_self .., _, _, readString_eq_ok.mpr ⟨_, rfl⟩,
      _, expect_self .., _, expect_self .., _, _, agentRead, _, _, stepsRead, _, _, failFastRead,
      _, _, parallelRead, _, expect_self .., rfl⟩

theorem StageText.head? {stage : Stage} (text : StageText ks stage ks') :
    ks.head? = some (.keyword .stage) := by
  cases text
  rfl

theorem stagesComplete (fuel : Nat) : StagesComplete fuel := by
  induction fuel with
  | zero =>
    refine ⟨fun ts s ks enough text => ?_, fun ts stages ks enough text => ?_, ?_⟩
    · obtain rfl := List.length_eq_zero_iff.mp (Nat.le_zero.mp enough)
      cases text
    · obtain rfl := List.length_eq_zero_iff.mp (Nat.le_zero.mp enough)
      cases text
    · intro ts stages ks enough
      omega
  | succ fuel ih =>
    obtain ⟨stage, block, more⟩ := ih
    refine ⟨fun ts s ks => readStage_complete block, fun ts stages ks enough text => ?_,
      fun ts stages ks enough text behind => ?_⟩
    · generalize hk : kinds ts = all at text
      cases text with
      | block first others =>
        obtain ⟨_, inner, rfl, rfl⟩ := kinds_eq_cons.mp hk
        simp only [List.length_cons] at enough
        obtain ⟨ts₁, firstRead, rfl, shorter₁⟩ := stage _ _ _ (by omega) first
        obtain ⟨_, othersRead, hk', shorter₂⟩ := more _ _ _ (by omega) others rfl
        obtain ⟨_, rest, rfl, rfl⟩ := kinds_eq_cons.mp hk'
        simp only [List.length_cons] at shorter₂
        refine ⟨rest, ?_, rfl, by simp only [List.length_cons]; omega⟩
        simp only [readStageBlock, bind_eq_ok, Prod.exists]
        exact ⟨_, expect_self .., _, _, firstRead, _, _, othersRead, _, expect_self .., rfl⟩
    · generalize hk : kinds ts = all at text
      cases text with
      | nil =>
        subst hk
        exact ⟨ts, readMoreStages_nil behind, rfl, Nat.le_refl _⟩
      | cons first others =>
        subst hk
        obtain ⟨ts₁, firstRead, rfl, shorter₁⟩ := stage _ _ _ (by omega) first
        obtain ⟨rest, othersRead, hk', shorter₂⟩ := more _ _ _ (by omega) others behind
        refine ⟨rest, ?_, hk', by omega⟩
        cases ts with
        | nil => simp at shorter₁
        | cons token inner =>
          obtain ⟨kind, p⟩ := token
          obtain rfl : kind = .keyword .stage := by simpa using first.head?
          simp [readMoreStages, firstRead, othersRead, bind, Except.bind]

theorem readPipeline_complete {p : Pipeline} (text : Sentence (kinds ts) p) :
    readPipeline ts = .ok p := by
  generalize hk : kinds ts = all at text
  cases text with
  | pipeline agentText stagesText =>
    obtain ⟨_, _, rfl, hk₁⟩ := kinds_eq_cons.mp hk
    obtain ⟨_, _, rfl, hk₂⟩ := kinds_eq_cons.mp hk₁
    obtain ⟨_, body, rfl, rfl⟩ := kinds_eq_cons.mp hk₂
    obtain ⟨_, agentRead, hk₃, shorter⟩ := readAgent_complete agentText
    obtain ⟨_, inner, rfl, rfl⟩ := kinds_eq_cons.mp hk₃
    simp only [List.length_cons] at shorter
    obtain ⟨_, stagesRead, hk₄, _⟩ := (stagesComplete (body.length + 3)).2.1 inner _ _
      (by omega) stagesText
    obtain ⟨_, rest, rfl, hk₅⟩ := kinds_eq_cons.mp hk₄
    obtain rfl : rest = [] := by simpa [kinds] using hk₅
    simp only [readPipeline, bind_eq_ok, Prod.exists]
    exact ⟨_, expect_self .., _, expect_self .., _, expect_self .., _, _, agentRead, _,
      expect_self .., _, _, stagesRead, _, expect_self .., rfl⟩

/-- Reading a whole script gives its derivation's value and nothing else. -/
theorem readPipeline_eq_ok {p : Pipeline} :
    readPipeline ts = .ok p ↔ Sentence (kinds ts) p :=
  ⟨readPipeline_sound, readPipeline_complete⟩

/-- A script describes one pipeline at most: reading it would give both. -/
theorem Sentence.unique {p q : Pipeline} (text : Sentence ks p) (text' : Sentence ks q) :
    p = q := by
  obtain ⟨ts, rfl⟩ : ∃ ts, kinds ts = ks :=
    ⟨ks.map (⟨·, .start⟩), by simp [kinds, Function.comp_def]⟩
  exact Except.ok.inj ((readPipeline_complete text).symm.trans (readPipeline_complete text'))

/-! ### What the grammar leaves open -/

/-- A stage is one of some stages or is nested in one of them. -/
inductive Among : Stage → List Stage → Prop where
  | here {stage : Stage} {stages : List Stage} (mem : stage ∈ stages) : Among stage stages
  | within {stage outer : Stage} {stages : List Stage} (mem : outer ∈ stages)
      (inner : Among stage outer.parallel) : Among stage stages

/-- The stage has a name with something in it. -/
def Named (stage : Stage) : Prop := ∃ c ∈ stage.name.toList, Text.isBlank c = false

theorem isNamed_iff {stage : Stage} :
    stage.isNamed = true ↔ Named stage ∧ Stage.allNamed stage.parallel = true := by
  cases stage
  simp [Stage.isNamed, Named, Text.isBlankText]

theorem allNamed_cons {stage : Stage} {stages : List Stage} :
    Stage.allNamed (stage :: stages) = true ↔
      stage.isNamed = true ∧ Stage.allNamed stages = true := by
  simp [Stage.allNamed]

theorem Among.cons_iff {stage first : Stage} {stages : List Stage} :
    Among stage (first :: stages) ↔
      stage = first ∨ Among stage first.parallel ∨ Among stage stages := by
  constructor
  · rintro (mem | ⟨mem, inner⟩)
    · rcases List.mem_cons.mp mem with rfl | mem
      · exact .inl rfl
      · exact .inr (.inr (.here mem))
    · rcases List.mem_cons.mp mem with rfl | mem
      · exact .inr (.inl inner)
      · exact .inr (.inr (.within mem inner))
  · rintro (rfl | inner | mem | ⟨mem, inner⟩)
    · exact .here (.head _)
    · exact .within (.head _) inner
    · exact .here (.tail _ mem)
    · exact .within (.tail _ mem) inner

mutual

theorem isNamed_iff_among (stage : Stage) :
    stage.isNamed = true ↔ Named stage ∧ ∀ inner, Among inner stage.parallel → Named inner := by
  cases stage with
  | mk name agent steps failFast parallel =>
    simp only [isNamed_iff, allNamed_iff_among parallel]

/-- The check of names reaches every depth. -/
theorem allNamed_iff_among (stages : List Stage) :
    Stage.allNamed stages = true ↔ ∀ stage, Among stage stages → Named stage := by
  cases stages with
  | nil =>
    refine ⟨fun _ stage among => ?_, fun _ => by simp [Stage.allNamed]⟩
    cases among with
    | here mem | within mem => cases mem
  | cons first rest =>
    simp only [allNamed_cons, isNamed_iff_among first, allNamed_iff_among rest, Among.cons_iff]
    grind

end

theorem defect?_eq_none {p : Pipeline} :
    p.defect? = none ↔ p.stages ≠ [] ∧ Stage.allNamed p.stages = true := by
  unfold Pipeline.defect?
  split
  next empty => simp_all
  next stages => split <;> simp_all

theorem Sentence.stages_ne_nil {p : Pipeline} (text : Sentence ks p) : p.stages ≠ [] := by
  cases text with
  | pipeline _ stagesText =>
    cases stagesText
    exact List.cons_ne_nil _ _

theorem parse_eq_ok {source : String} {p : Pipeline} :
    parse source = .ok p ↔
      ∃ ts, tokenize source = .ok ts ∧ Sentence (kinds ts) p ∧
        ∀ stage, Among stage p.stages → Named stage := by
  simp only [parse, bind_eq_ok, readPipeline_eq_ok, ← allNamed_iff_among]
  refine exists_congr fun ts => and_congr_right fun _ => ?_
  constructor
  · rintro ⟨q, text, h⟩
    split at h
    next sound =>
      cases h
      exact ⟨text, (defect?_eq_none.mp sound).2⟩
    next => cases h
  · rintro ⟨text, named⟩
    refine ⟨p, text, ?_⟩
    simp [defect?_eq_none.mpr ⟨text.stages_ne_nil, named⟩]

/-- Scripts are exactly the sentences of the grammar: every list of tokens is read as the pipeline
that its derivation describes and is refused if it has none, no sentence describes two pipelines,
and a source is accepted exactly if its tokens are a sentence and no stage, at any depth, has a
blank name. -/
theorem accepts_exactly_the_grammar :
    (∀ ts p, readPipeline ts = .ok p ↔ Sentence (kinds ts) p) ∧
    (∀ ks p q, Sentence ks p → Sentence ks q → p = q) ∧
    ∀ source p, parse source = .ok p ↔
      ∃ ts, tokenize source = .ok ts ∧ Sentence (kinds ts) p ∧
        ∀ stage, Among stage p.stages → Named stage :=
  ⟨fun _ _ => readPipeline_eq_ok, fun _ _ _ => Sentence.unique, fun _ _ => parse_eq_ok⟩

namespace Branched

/-- A stage with one branch. Behind a name comes a string, a parameter or, at the end of a step,
the name of the next one. -/
def source : String :=
  "pipeline \x7b agent none stages \x7b stage('A') \x7b failFast true parallel \x7b stage('B') "
    ++ "\x7b steps \x7b sh 'x' checkout url: 'u' echo 'y' \x7d \x7d \x7d \x7d \x7d \x7d"

def branch : Stage :=
  { name := "B", steps := [.single "sh" "x", .multi "checkout" [⟨"url", "u"⟩], .single "echo" "y"] }

def pipeline : Pipeline := ⟨.none, [{ name := "A", failFast := some true, parallel := [branch] }]⟩

def sourceKinds : List TokenKind :=
  [.keyword .pipeline, .leftBrace, .keyword .agent, .keyword .none, .keyword .stages, .leftBrace,
    .keyword .stage, .leftParen, .string "A", .rightParen, .leftBrace,
    .keyword .failFast, .bool true, .keyword .parallel, .leftBrace,
    .keyword .stage, .leftParen, .string "B", .rightParen, .leftBrace,
    .keyword .steps, .leftBrace, .ident "sh", .string "x",
    .ident "checkout", .ident "url", .colon, .string "u", .ident "echo", .string "y",
    .rightBrace, .rightBrace, .rightBrace, .rightBrace, .rightBrace, .rightBrace]

theorem sentence : Sentence sourceKinds pipeline := by
  have steps : Star StepText
      [.ident "checkout", .ident "url", .colon, .string "u", .ident "echo", .string "y",
        .rightBrace, .rightBrace, .rightBrace, .rightBrace, .rightBrace, .rightBrace]
      [.multi "checkout" [⟨"url", "u"⟩], .single "echo" "y"]
      [.rightBrace, .rightBrace, .rightBrace, .rightBrace, .rightBrace, .rightBrace] :=
    .cons (.multi .param .nil) (.cons .single .nil)
  have branchText : StageText
      [.keyword .stage, .leftParen, .string "B", .rightParen, .leftBrace,
        .keyword .steps, .leftBrace, .ident "sh", .string "x",
        .ident "checkout", .ident "url", .colon, .string "u", .ident "echo", .string "y",
        .rightBrace, .rightBrace, .rightBrace, .rightBrace, .rightBrace, .rightBrace]
      branch [.rightBrace, .rightBrace, .rightBrace, .rightBrace] :=
    .stage .absent (.present (.block .single steps)) .absent .absent
  exact .pipeline .none
    (.block (.stage .absent .absent (.present .bool) (.present (.block branchText .nil))) .nil)

theorem tokens : ∃ ts, tokenize source = .ok ts ∧ kinds ts = sourceKinds := by
  have read : (tokenize source).toOption.map kinds = some sourceKinds := by decide +kernel
  cases h : tokenize source with
  | error e => simp [h, Except.toOption] at read
  | ok ts => exact ⟨ts, rfl, by simpa [h, Except.toOption] using read⟩

theorem source_describes_pipeline :
    parse source = .ok pipeline ∧ ∀ q, Sentence sourceKinds q → q = pipeline := by
  obtain ⟨_, unique, accepted⟩ := accepts_exactly_the_grammar
  refine ⟨(accepted source pipeline).mpr ?_, fun q text => unique _ _ _ text sentence⟩
  obtain ⟨ts, tokenized, same⟩ := tokens
  exact ⟨ts, tokenized, same ▸ sentence, (allNamed_iff_among _).mp (by decide +kernel)⟩

end Branched

end PipelineRunner.Script
