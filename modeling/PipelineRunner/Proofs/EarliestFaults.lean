import PipelineRunner.Proofs.Grammar

/-! Where a script that is no sentence goes wrong. A verdict tells what a reader finds out about
some tokens, and that it would find out the same if other tokens stood behind those that it has
looked at: it reads a text of its form, or the tokens end too early and could be completed, or it
faults a token up to which they could be completed. Verdicts are put together as the readers are,
and the verdict on a whole script says that the faulted token is the earliest one that no sentence
allows. -/

namespace PipelineRunner.Script

variable {α β : Type}

/-- A reader, with so much fuel. -/
abbrev Reader (α : Type) := Nat → List Token → Except SyntaxError (α × List Token)

/-- A parameter without its colon: its name is faulted, though it is the token behind it that is out
of place. -/
def LooksAhead (expected : Expectation) (token : Token) : Prop :=
  expected = .parameter ∧ ∃ name, token.kind = .ident name

/-- What a reader of texts of a form finds out about some tokens, given fuel for all of them. -/
inductive Verdict (form : Form α) (reader : Reader α) (ts : List Token) : Prop where
  /-- It reads a text, and looks at one token behind it at most. -/
  | read {used rest : List Token} {a : α} (split : ts = used ++ rest)
      (text : ∀ ks, form (kinds used ++ ks) a ks)
      (steady : ∀ n rest', rest'.head? = rest.head? → (used ++ rest').length ≤ n →
        reader n (used ++ rest') = .ok (a, rest'))
  /-- The tokens end too early. -/
  | ended (expected : Expectation) {more : List TokenKind} {a : α}
      (failed : ∀ n, ts.length ≤ n → reader n ts = .error (.unexpectedEnd expected))
      (missing : more ≠ []) (text : ∀ ks, form (kinds ts ++ (more ++ ks)) a ks)
  /-- A token is out of place, whatever stands behind it. -/
  | fault (expected : Expectation) (token : Token) {before after : List Token}
      {more : List TokenKind} {a : α} (split : ts = before ++ token :: after)
      (text : ∀ ks, form (kinds before ++ (more ++ ks)) a ks)
      (steady : ∀ n after', (LooksAhead expected token → after'.head? = after.head?) →
        (before ++ token :: after').length ≤ n →
        reader n (before ++ token :: after') = .error (.unexpectedToken expected token))
      (ahead : LooksAhead expected token → after.head?.map (·.kind) ≠ some .colon ∧
        ∃ more a, ∀ ks, form (kinds before ++ (token.kind :: .colon :: (more ++ ks))) a ks)

/-- There is a text of the form, whatever stands behind it. -/
class Completable (form : Form α) : Prop where
  text : ∃ more a, ∀ ks, form (more ++ ks) a ks

/-! ### Forms -/

/-- One token, which tells the value. -/
def OneToken (kind : α → TokenKind) : Form α := fun ks a rest => ks = kind a :: rest

/-- Nothing. -/
def Nothing (a : α) : Form α := fun ks b rest => b = a ∧ ks = rest

/-- A token and then a text of a form. -/
def Following (kind : TokenKind) (form : Form α) : Form α :=
  fun ks a rest => ∃ mid, ks = kind :: mid ∧ form mid a rest

/-- A text of one form and then one of another, which may depend on the value of the first. -/
def AndThen (form : Form α) (next : α → Form β) : Form β :=
  fun ks b rest => ∃ a mid, form ks a mid ∧ next a mid b rest

/-- A text that a word announces, or nothing; `wrap` tells how that is understood. -/
def Wrapped (wrap : Option α → β) (word : Keyword) (form : Form α) : Form β :=
  fun ks b rest => ∃ o, Optionally word form ks o rest ∧ b = wrap o

section Completions

variable (kind : α → TokenKind) (a : α) (form : Form α) (next : α → Form β)

instance [Inhabited α] : Completable (OneToken kind) := ⟨[kind default], default, fun _ => rfl⟩

instance : Completable (Nothing a) := ⟨[], a, fun _ => ⟨rfl, rfl⟩⟩

instance (k : TokenKind) [inner : Completable form] : Completable (Following k form) := by
  obtain ⟨more, a, text⟩ := inner.text
  exact ⟨k :: more, a, fun ks => ⟨more ++ ks, rfl, text ks⟩⟩

instance [first : Completable form] [others : ∀ a, Completable (next a)] :
    Completable (AndThen form next) := by
  obtain ⟨more, a, text⟩ := first.text
  obtain ⟨more', b, text'⟩ := (others a).text
  exact ⟨more ++ more', b, fun ks => ⟨a, more' ++ ks, by simpa using text (more' ++ ks), text' ks⟩⟩

instance (word : Keyword) : Completable (Optionally word form) := ⟨[], none, fun _ => .absent⟩

instance (wrap : Option α → β) (word : Keyword) : Completable (Wrapped wrap word form) :=
  ⟨[], wrap none, fun _ => ⟨none, .absent, rfl⟩⟩

instance : Completable (Star form) := ⟨[], [], fun _ => .nil⟩

instance [inner : Completable form] : Completable (Block form) := by
  obtain ⟨more, a, text⟩ := inner.text
  refine ⟨.leftBrace :: (more ++ [.rightBrace]), [a], fun ks => ?_⟩
  exact .block (by simpa using text (.rightBrace :: ks)) .nil

instance : Completable AgentText := ⟨[.keyword .none], .none, fun _ => .none⟩

instance : Completable BoolText := ⟨[.bool true], true, fun _ => .bool⟩

instance : Completable ParamText := ⟨[.ident "", .colon, .string ""], ⟨"", ""⟩, fun _ => .param⟩

instance : Completable NextParamText :=
  ⟨[.comma, .ident "", .colon, .string ""], ⟨"", ""⟩, fun _ => .next .param⟩

instance : Completable StepText := ⟨[.ident "", .string ""], .single "" "", fun _ => .single⟩

instance : Completable StageText :=
  ⟨[.keyword .stage, .leftParen, .string "", .rightParen, .leftBrace, .rightBrace],
    ⟨"", none, [], none, []⟩, fun _ => .stage .absent .absent .absent .absent⟩

instance : Completable PipelineText := by
  obtain ⟨more, stages, text⟩ := (inferInstance : Completable (Block StageText)).text
  refine ⟨[.keyword .pipeline, .leftBrace, .keyword .agent, .keyword .none, .keyword .stages] ++
    more ++ [.rightBrace], ⟨.none, stages⟩, fun ks => ?_⟩
  exact .pipeline .none (by simpa using text (.rightBrace :: ks))

end Completions

/-! ### Verdicts -/

@[simp] theorem kinds_append (ts us : List Token) : kinds (ts ++ us) = kinds ts ++ kinds us :=
  List.map_append ..

namespace Verdict

variable {form : Form α} {reader : Reader α} {ts : List Token}

/-- Other forms that hold of the same texts. -/
theorem mono {form' : Form α} (verdict : Verdict form reader ts)
    (wider : ∀ ks a rest, form ks a rest → form' ks a rest) : Verdict form' reader ts := by
  cases verdict with
  | read split text steady => exact .read split (fun ks => wider _ _ _ (text ks)) steady
  | ended expected failed missing text =>
    exact .ended expected failed missing fun ks => wider _ _ _ (text ks)
  | fault expected token split text steady ahead =>
    refine .fault expected token split (fun ks => wider _ _ _ (text ks)) steady fun looks => ?_
    obtain ⟨colon, more, a, text'⟩ := ahead looks
    exact ⟨colon, more, a, fun ks => wider _ _ _ (text' ks)⟩

/-- Other readers that do the same with all tokens that begin in the same way. -/
theorem congr {reader' : Reader α} (verdict : Verdict form reader ts)
    (same : ∀ n ts', ts'.head? = ts.head? → ts'.length ≤ n → reader' n ts' = reader n ts') :
    Verdict form reader' ts := by
  cases verdict with
  | @read used rest a split text steady =>
    refine .read split text fun n rest' head enough => ?_
    rw [same n _ (by rw [split, List.head?_append, List.head?_append, head]) enough]
    exact steady n rest' head enough
  | ended expected failed missing text =>
    exact .ended expected (fun n enough => (same n ts rfl enough).trans (failed n enough)) missing
      text
  | fault expected token split text steady ahead =>
    refine .fault expected token split text (fun n after' looks enough => ?_) ahead
    rw [same n _ (by rw [split, List.head?_append, List.head?_append]; rfl) enough]
    exact steady n after' looks enough

theorem nothing (a : α) : Verdict (Nothing a) (fun _ ts => .ok (a, ts)) ts :=
  .read (show ts = [] ++ ts from rfl) (fun _ => ⟨rfl, rfl⟩) fun _ _ _ _ => rfl

/-- No text of the form is empty, and the reader says so. -/
theorem empty (expected : Expectation) (nonempty : ∀ a, ¬ form [] a []) [some : Completable form]
    (failed : ∀ n, reader n [] = .error (.unexpectedEnd expected)) : Verdict form reader [] := by
  obtain ⟨more, a, text⟩ := some.text
  refine .ended expected (fun n _ => failed n) ?_ fun ks => text ks
  rintro rfl
  exact nonempty a (text [])

/-- The reader does not take the first token. -/
theorem stopped (expected : Expectation) {token : Token} {rest : List Token}
    [some : Completable form] (plain : ¬ LooksAhead expected token)
    (failed : ∀ n rest, reader n (token :: rest) = .error (.unexpectedToken expected token)) :
    Verdict form reader (token :: rest) := by
  obtain ⟨more, a, text⟩ := some.text
  have text' (ks : List TokenKind) : form (kinds [] ++ (more ++ ks)) a ks := text ks
  exact .fault expected token (show _ = [] ++ token :: rest from rfl) text'
    (fun n after _ _ => failed n after) fun looks => absurd looks plain

/-- The reader takes some tokens and goes on behind them. -/
theorem headed {form' : Form α} {next : Reader α} (lead : List Token) {rest : List Token}
    (second : Verdict form' next rest)
    (goes : ∀ n behind, behind.head? = rest.head? → (lead ++ behind).length ≤ n →
      ∃ m, behind.length ≤ m ∧ reader n (lead ++ behind) = next m behind)
    (whole : ∀ ks a rest, form' ks a rest → form (kinds lead ++ ks) a rest) :
    Verdict form reader (lead ++ rest) := by
  cases second with
  | @read used rest a split text steady =>
    subst split
    refine .read (List.append_assoc ..).symm
      (fun ks => by simpa using whole _ _ _ (text ks)) fun n behind head enough => ?_
    rw [List.append_assoc] at enough ⊢
    obtain ⟨m, left, same⟩ := goes n _ (by simp [head]) enough
    rw [same, steady m behind head left]
  | ended expected failed missing text =>
    refine .ended expected (fun n enough => ?_) missing
      fun ks => by simpa using whole _ _ _ (text ks)
    obtain ⟨m, left, same⟩ := goes n _ rfl enough
    rw [same, failed m left]
  | @fault expected token before after more a split text steady ahead =>
    subst split
    refine .fault expected token (List.append_assoc ..).symm
      (fun ks => by simpa using whole _ _ _ (text ks)) (fun n behind looks enough => ?_)
      fun looks => ?_
    · rw [List.append_assoc] at enough ⊢
      obtain ⟨m, left, same⟩ := goes n _ (by simp) enough
      rw [same, steady m behind looks left]
    · obtain ⟨colon, more, a, text⟩ := ahead looks
      exact ⟨colon, more, a, fun ks => by simpa using whole _ _ _ (text ks)⟩

theorem token [Inhabited α] {expected : Expectation} {accept : TokenKind → Option α}
    {kind : α → TokenKind} (accepts : ∀ k a, accept k = some a ↔ k = kind a)
    (plain : expected ≠ .parameter) :
    Verdict (OneToken kind) (fun _ => readToken expected accept) ts := by
  match ts with
  | [] => exact .empty expected (fun a h => List.cons_ne_nil _ _ h.symm) fun _ => rfl
  | ⟨k, p⟩ :: rest =>
    cases accepted : accept k with
    | some a =>
      obtain rfl := (accepts k a).mp accepted
      refine headed [⟨kind a, p⟩] (.nothing a) (fun n behind _ _ =>
        ⟨behind.length, Nat.le_refl _, by simp [readToken, accepted]⟩) ?_
      rintro ks _ rest ⟨rfl, rfl⟩
      rfl
    | none =>
      exact .stopped expected (fun looks => plain looks.1) fun n rest => by
        simp [readToken, accepted]

/-- Reading a text and then another one. The second reader may have fuel for fewer tokens if the
texts before it take so many; it need only be known where it starts in fact. -/
theorem bind {form' : α → Form β} [others : ∀ a, Completable (form' a)]
    (first : Verdict form reader ts) (next : α → Reader β) (d : Nat)
    (takes : ∀ used a, (∀ ks, form (used ++ ks) a ks) → d ≤ used.length)
    (second : ∀ used rest a, ts = used ++ rest → (∀ ks, form (kinds used ++ ks) a ks) →
      Verdict (form' a) (next a) rest) :
    Verdict (AndThen form form') (fun n ts => reader n ts >>= fun x => next x.1 (n - d) x.2)
      ts := by
  cases first with
  | @read used rest a split text steady =>
    have spent : d ≤ used.length := by simpa [kinds] using takes _ _ text
    subst split
    cases second used rest a rfl text with
    | @read used' rest' b split' text' steady' =>
      subst split'
      refine .read (List.append_assoc ..).symm
        (fun ks => ⟨a, kinds used' ++ ks, by simpa using text (kinds used' ++ ks), text' ks⟩)
        fun n behind head enough => ?_
      rw [List.append_assoc] at enough ⊢
      rw [steady n _ (by simp [head]) enough]
      exact steady' (n - d) behind head (by simp at enough ⊢; omega)
    | @ended expected more b failed missing text' =>
      refine .ended expected (fun n enough => ?_) missing fun ks =>
        ⟨a, kinds rest ++ (more ++ ks), by simpa using text (kinds rest ++ (more ++ ks)), text' ks⟩
      rw [steady n _ rfl enough]
      exact failed (n - d) (by simp at enough; omega)
    | @fault expected token before after more b split' text' steady' ahead =>
      subst split'
      refine .fault expected token (List.append_assoc ..).symm
        (fun ks => ⟨a, kinds before ++ (more ++ ks), by simpa using text _, text' ks⟩)
        (fun n behind looks enough => ?_) fun looks => ?_
      · rw [List.append_assoc] at enough ⊢
        rw [steady n _ (by simp) enough]
        exact steady' (n - d) behind looks (by simp at enough ⊢; omega)
      · obtain ⟨colon, more, b, text''⟩ := ahead looks
        exact ⟨colon, more, b, fun ks => ⟨a, _, by simpa using text _, text'' ks⟩⟩
  | @ended expected more a failed missing text =>
    obtain ⟨more', b, text'⟩ := (others a).text
    refine .ended expected (fun n enough => ?_)
      (List.append_ne_nil_of_left_ne_nil missing more')
      fun ks => ⟨a, more' ++ ks, by simpa using text (more' ++ ks), text' ks⟩
    rw [failed n enough]
    rfl
  | @fault expected token before after more a split text steady ahead =>
    obtain ⟨more', b, text'⟩ := (others a).text
    have both (ks : List TokenKind) :
        AndThen form form' (kinds before ++ ((more ++ more') ++ ks)) b ks :=
      ⟨a, more' ++ ks, by simpa using text (more' ++ ks), text' ks⟩
    refine .fault expected token split both (fun n behind looks enough => ?_) fun looks => ?_
    · rw [steady n behind looks enough]
      rfl
    · obtain ⟨colon, more, a, text⟩ := ahead looks
      obtain ⟨more', b, text'⟩ := (others a).text
      exact ⟨colon, more ++ more', b, fun ks =>
        ⟨a, more' ++ ks, by simpa using text (more' ++ ks), text' ks⟩⟩

/-- Reading a text and then another one, with the fuel for both. -/
theorem andThen {form' : α → Form β} [others : ∀ a, Completable (form' a)]
    (first : Verdict form reader ts) (next : α → Reader β)
    (second : ∀ a rest, rest.length ≤ ts.length → Verdict (form' a) (next a) rest) :
    Verdict (AndThen form form') (fun n ts => reader n ts >>= fun x => next x.1 n x.2) ts :=
  first.bind next 0 (fun _ _ _ => Nat.zero_le _) fun used rest a split _ =>
    second a rest (by simp [split])

/-- Reading a text, for what is made of it. -/
theorem map {γ : Type} (first : Verdict form reader ts) (f : α → γ) :
    Verdict (AndThen form fun a => Nothing (f a))
      (fun n ts => reader n ts >>= fun x => .ok (f x.1, x.2)) ts :=
  first.andThen (fun a _ ts => .ok (f a, ts)) fun a _ _ => .nothing (f a)

/-- Reading a token that is no value, and then a text; the fuel may be less by that token. -/
theorem expect {kind : TokenKind} {form : Form α} [Completable form] (next : Reader α) (d : Nat)
    (one : d ≤ 1) (second : ∀ token rest, ts = token :: rest → Verdict form next rest) :
    Verdict (Following kind form) (fun n ts => Script.expect kind ts >>= next (n - d)) ts := by
  match ts with
  | [] =>
    refine .empty (.token kind) ?_ fun _ => rfl
    rintro _ ⟨_, absurd, _⟩
    cases absurd
  | ⟨k, p⟩ :: rest =>
    by_cases same : k = kind
    · subst same
      exact headed [⟨k, p⟩] (second _ _ rfl) (fun n behind _ enough =>
        ⟨n - d, by simp at enough; omega, by simp [expect_self, Bind.bind, Except.bind]⟩)
        fun ks a rest text => ⟨ks, rfl, text⟩
    · refine .stopped (.token kind) (fun looks => nomatch looks.1) fun n rest => ?_
      simp [Script.expect, readToken, same, Except.map, Bind.bind, Except.bind]

theorem string {expected : Expectation} (plain : expected ≠ .parameter) :
    Verdict (OneToken .string) (fun _ => readString expected) ts :=
  token (fun k s => by cases k <;> simp) plain

theorem ident {expected : Expectation} (plain : expected ≠ .parameter) :
    Verdict (OneToken .ident) (fun _ => readIdent expected) ts :=
  token (fun k s => by cases k <;> simp) plain

theorem optional {word : Keyword} {form : Form β} {read : Reader α} (wrap : Option β → α)
    (present : ∀ token rest, ts = token :: rest →
      Verdict (fun ks a rest => ∃ b, form ks b rest ∧ a = wrap (some b)) read rest) :
    Verdict (Wrapped wrap word form) (fun n => readOptional word (wrap none) (read n)) ts := by
  match ts with
  | [] =>
    refine .read (show [] = [] ++ [] from rfl) (fun ks => ⟨none, .absent, rfl⟩)
      fun n behind head _ => ?_
    obtain rfl : behind = [] := by simpa using head
    rfl
  | token :: rest =>
    by_cases announced : token.kind = .keyword word
    · refine headed [token] (present _ _ rfl) (fun n behind _ enough =>
        ⟨n, by simp at enough; omega, by simp [readOptional, announced]⟩) ?_
      rintro ks _ rest ⟨b, text, rfl⟩
      exact ⟨some b, by simpa [kinds, announced] using .present text, rfl⟩
    · refine .read (show _ = [] ++ token :: rest from rfl) (fun ks => ⟨none, .absent, rfl⟩)
        fun n behind head _ => ?_
      cases behind with
      | nil => simp at head
      | cons token' rest' =>
        obtain rfl : token' = token := by simpa using head
        simp [readOptional, announced]

/-- Reading texts of a form as long as the next token begins one; the first of them is read with
the fuel for all, the others with less. -/
theorem many {form : Form α} {one : Reader α} {loop : Reader (List α)}
    (begins : TokenKind → Prop) (nonempty : ∀ a, ¬ form [] a [])
    (stops : ∀ n ts, (∀ token ∈ ts.head?, ¬ begins token.kind) → ts.length ≤ n →
      loop n ts = .ok ([], ts))
    (goes : ∀ n token ts, begins token.kind → (token :: ts).length ≤ n →
      loop n (token :: ts) = one n (token :: ts) >>= fun x =>
        loop (n - 1) x.2 >>= fun y => .ok (x.1 :: y.1, y.2))
    (verdict : ∀ us, us.length ≤ ts.length → Verdict form one us) :
    Verdict (Star form) loop ts := by
  induction len : ts.length using Nat.strongRecOn generalizing ts with
  | ind m ih =>
    by_cases head : ∀ token ∈ ts.head?, ¬ begins token.kind
    · refine .read (show _ = [] ++ ts from rfl) (fun ks => .nil) fun n behind same enough => ?_
      exact stops n behind (same ▸ head) enough
    · obtain ⟨token, rest, rfl, begun⟩ : ∃ token rest, ts = token :: rest ∧ begins token.kind := by
        cases ts <;> simp_all
      have takes (used : List TokenKind) (a : α) (text : ∀ ks, form (used ++ ks) a ks) :
          1 ≤ used.length := by
        cases used with
        | nil => exact absurd (text []) (nonempty a)
        | cons _ _ => simp
      have (a : α) : Completable (AndThen (Star form) fun as => Nothing (a :: as)) :=
        ⟨[], [a], fun _ => ⟨[], _, .nil, rfl, rfl⟩⟩
      have behind (used behind : List Token) (a : α) (split : token :: rest = used ++ behind)
          (text : ∀ ks, form (kinds used ++ ks) a ks) :
          Verdict (AndThen (Star form) fun as => Nothing (a :: as))
            (fun n ts => loop n ts >>= fun y => .ok (a :: y.1, y.2)) behind := by
        have spent := takes _ _ text
        have shorter : behind.length < m := by
          rw [← len, split]
          simp [kinds] at spent ⊢
          exact spent
        exact (ih _ shorter (fun us le => verdict us (by omega)) rfl).map (a :: ·)
      have both := (verdict (token :: rest) (Nat.le_refl _)).bind
        (fun a n ts => loop n ts >>= fun y => .ok (a :: y.1, y.2)) 1 takes behind
      refine (both.congr fun n ts' same enough => ?_).mono ?_
      · cases ts' with
        | nil => simp at same
        | cons token' rest' =>
          obtain rfl : token' = token := by simpa using same
          exact goes n _ _ begun enough
      · rintro _ _ _ ⟨a, _, first, as, _, others, rfl, rfl⟩
        exact .cons first others

theorem wrapped (first : Verdict form reader ts) (f : α → β) :
    Verdict (fun ks b rest => ∃ a, form ks a rest ∧ b = f a)
      (fun n ts => (reader n ts).map fun (a, rest) => (f a, rest)) ts := by
  refine ((first.map f).congr fun n ts' _ _ => ?_).mono ?_
  · cases read : reader n ts' <;> simp [Except.map, Bind.bind, Except.bind]
  · rintro _ _ _ ⟨a, _, text, rfl, rfl⟩
    exact ⟨a, text, rfl⟩

/-- Reading a value that a word may announce. -/
theorem maybe (word : Keyword) (ts : List Token)
    (first : ∀ us, us.length < ts.length → Verdict form reader us) :
    Verdict (Optionally word form) (fun n => readOptional word none fun ts =>
      (reader n ts).map fun (a, rest) => (some a, rest)) ts := by
  have whole : Verdict (Wrapped id word form) _ ts :=
    optional id fun _ rest same => (first rest (by simp [same])).wrapped some
  refine whole.mono ?_
  rintro _ _ _ ⟨o, text, rfl⟩
  exact text

theorem listed (word : Keyword) (ts : List Token) {form : Form (List α)}
    {reader : Reader (List α)}
    (first : ∀ us, us.length < ts.length → Verdict form reader us) :
    Verdict (Wrapped (·.getD []) word form) (fun n => readOptional word [] (reader n)) ts :=
  optional (·.getD []) fun _ rest same =>
    (first rest (by simp [same])).mono fun _ as _ text => ⟨as, text, rfl⟩

theorem block {form : Form α} {one : Reader α} {loop : Reader (List α)} [Completable form]
    (nonempty : ∀ a, ¬ form [] a [])
    (first : ∀ us, us.length < ts.length → Verdict form one us)
    (others : ∀ us, us.length < ts.length → Verdict (Star form) loop us) :
    Verdict (Block form) (fun n ts => do
      let ts ← Script.expect .leftBrace ts
      let (a, ts) ← one (n - 1) ts
      let (as, ts) ← loop (n - 1 - 1) ts
      let ts ← Script.expect .rightBrace ts
      .ok (a :: as, ts)) ts := by
  have close (as : List α) (us : List Token) : Verdict (Following .rightBrace _) _ us :=
    .expect (fun _ ts => .ok (as, ts)) 0 (Nat.zero_le _) fun _ _ _ => .nothing as
  have more (a : α) (us : List Token) (lt : us.length < ts.length) :=
    (others us lt).andThen _ fun as rest _ => close (a :: as) rest
  have inner (us : List Token) (lt : us.length < ts.length) := (first us lt).bind _ 1
    (fun used a text => by
      cases used with
      | nil => exact absurd (text []) (nonempty a)
      | cons _ _ => simp)
    fun used rest a split _ => more a rest (by simp [split] at lt; omega)
  have whole : Verdict (Following .leftBrace _) _ ts :=
    .expect _ 1 (Nat.le_refl 1) fun _ rest same => inner rest (by simp [same])
  refine (whole.congr fun _ _ _ _ => rfl).mono ?_
  rintro _ _ _ ⟨_, rfl, a, _, text, as, _, texts, _, rfl, rfl, rfl⟩
  exact .block text texts

/-- A reader that takes as much fuel as there are tokens. -/
theorem measured (verdict : Verdict form reader ts) :
    Verdict form (fun _ ts => reader ts.length ts) ts := by
  cases verdict with
  | read split text steady =>
    exact .read split text fun n behind head _ => steady _ behind head (Nat.le_refl _)
  | ended expected failed missing text =>
    exact .ended expected (fun n _ => failed _ (Nat.le_refl _)) missing text
  | fault expected token split text steady ahead =>
    exact .fault expected token split text
      (fun n after looks _ => steady _ after looks (Nat.le_refl _)) ahead

end Verdict

/-! ### The readers of a script -/

variable {ts : List Token}

/-- Reading the image of an agent, behind the opening brace. -/
theorem dockerVerdict : Verdict (fun ks agent rest => AgentText (.leftBrace :: ks) agent rest)
    (fun _ ts => do
      let ts ← expect (.keyword .docker) ts
      let (image, ts) ← readString .dockerImage ts
      let ts ← expect .rightBrace ts
      .ok (Agent.docker image, ts)) ts := by
  have close (image : String) (ts : List Token) : Verdict (Following .rightBrace _)
      (fun _ ts => expect .rightBrace ts >>= fun ts => .ok (Agent.docker image, ts)) ts :=
    .expect (fun _ ts => .ok (Agent.docker image, ts)) 0 (Nat.zero_le _) fun _ _ _ =>
      .nothing (Agent.docker image)
  have name (ts : List Token) : Verdict (AndThen (OneToken .string) _) _ ts :=
    (Verdict.string (show Expectation.dockerImage ≠ .parameter by decide)).andThen
      (fun image _ ts => expect .rightBrace ts >>= fun ts => .ok (Agent.docker image, ts))
      fun image _ _ => close image _
  have whole : Verdict (Following (.keyword .docker) _) _ ts :=
    .expect _ 0 (Nat.zero_le 1) fun _ rest _ => name rest
  refine (whole.congr fun _ _ _ _ => rfl).mono ?_
  rintro _ _ _ ⟨_, rfl, image, _, rfl, _, rfl, rfl, rfl⟩
  exact .docker

theorem agentVerdict (ts : List Token) : Verdict AgentText (fun _ => readAgent) ts := by
  match ts with
  | [] => exact .empty .agent (fun _ h => nomatch h) fun _ => rfl
  | ⟨k, p⟩ :: rest =>
    by_cases none : k = .keyword .none
    · subst none
      refine .headed [⟨.keyword .none, p⟩] (.nothing .none) (fun n behind _ _ =>
        ⟨behind.length, Nat.le_refl _, rfl⟩) ?_
      rintro ks _ rest ⟨rfl, rfl⟩
      exact .none
    by_cases brace : k = .leftBrace
    · subst brace
      exact .headed [⟨.leftBrace, p⟩] dockerVerdict (fun n behind _ _ =>
        ⟨behind.length, Nat.le_refl _, rfl⟩) fun _ _ _ => id
    refine .stopped .agent (fun looks => nomatch looks.1) fun n rest => ?_
    cases k with
    | keyword word => cases word <;> first | rfl | exact absurd rfl none
    | leftBrace => exact absurd rfl brace
    | _ => rfl

/-- A name in the place of a parameter is faulted for what stands behind it. -/
theorem paramVerdict : Verdict ParamText (fun _ => readParam) ts := by
  match ts with
  | [] => exact .empty .parameter (fun _ h => nomatch h) fun _ => rfl
  | ⟨k, p⟩ :: rest =>
    cases k with
    | ident name =>
      have whole (value : String) (ks : List TokenKind) :
          ParamText (kinds [] ++ ([.ident name, .colon, .string value] ++ ks)) ⟨name, value⟩ ks :=
        .param
      by_cases colon : rest.head?.map (·.kind) = some .colon
      · obtain ⟨q, more, rfl⟩ : ∃ q more, rest = ⟨.colon, q⟩ :: more := by
          cases rest with
          | nil => simp at colon
          | cons second more =>
            obtain ⟨k, q⟩ := second
            obtain rfl : k = .colon := by simpa using colon
            exact ⟨q, more, rfl⟩
        refine .headed [⟨.ident name, p⟩, ⟨.colon, q⟩]
          ((Verdict.string (show Expectation.parameterValue ≠ .parameter by decide)).map
            (Param.mk name))
          (fun n behind _ _ => ⟨behind.length, Nat.le_refl _, rfl⟩) ?_
        rintro _ _ _ ⟨value, _, rfl, rfl, rfl⟩
        exact .param
      · refine .fault .parameter ⟨.ident name, p⟩ (show _ = [] ++ _ :: rest from rfl) (whole "")
          (fun n after looks _ => ?_) fun _ => ⟨colon, [.string ""], _, whole ""⟩
        rw [← looks ⟨rfl, name, rfl⟩] at colon
        match after with
        | [] => rfl
        | second :: more =>
          have other : second.kind ≠ .colon := by simpa using colon
          simp only [List.nil_append, readParam, if_pos other]
          rfl
    | _ => exact .stopped .parameter (fun ⟨_, _, named⟩ => nomatch named) fun _ _ => rfl

theorem moreParamsVerdict : Verdict (Star NextParamText) readMoreParams ts := by
  have next (us : List Token) :
      Verdict NextParamText (fun _ us => expect .comma us >>= readParam) us := by
    refine Verdict.mono
      (.expect (fun _ => readParam) 0 (Nat.zero_le 1) fun _ _ _ => paramVerdict) ?_
    rintro _ _ _ ⟨_, rfl, text⟩
    exact .next text
  refine .many (· = .comma) (fun _ h => nomatch h) (fun n ts free _ => ?_)
    (fun n token ts comma enough => ?_) fun us _ => next us
  · exact readMoreParams_nil (by cases ts <;> simp_all [kinds])
  · obtain ⟨m, rfl⟩ : ∃ m, n = m + 1 := ⟨n - 1, by simp at enough; omega⟩
    obtain ⟨k, p⟩ := token
    obtain rfl : k = .comma := comma
    rw [expect_self]
    rfl

theorem paramsVerdict (command : String) :
    Verdict (AndThen ParamText fun param => AndThen (Star NextParamText) fun params =>
      Nothing (Step.multi command (param :: params))) (fun _ ts => do
        let (param, ts) ← readParam ts
        let (params, ts) ← readMoreParams ts.length ts
        .ok (.multi command (param :: params), ts)) ts :=
  paramVerdict.andThen (fun param _ ts => readMoreParams ts.length ts >>= fun x =>
    .ok (Step.multi command (param :: x.1), x.2)) fun param _ _ =>
      moreParamsVerdict.measured.map fun params => Step.multi command (param :: params)

theorem stepVerdict : Verdict StepText (fun _ => readStep) ts := by
  match ts with
  | [] => exact .empty .stepCommand (fun _ h => nomatch h) fun _ => rfl
  | ⟨k, p⟩ :: rest =>
    cases k with
    | ident command =>
      by_cases single : ∃ value, rest.head?.map (·.kind) = some (.string value)
      · obtain ⟨value, q, more, rfl⟩ : ∃ value q more, rest = ⟨.string value, q⟩ :: more := by
          obtain ⟨value, string⟩ := single
          cases rest with
          | nil => simp at string
          | cons second more =>
            obtain ⟨k, q⟩ := second
            obtain rfl : k = .string value := by simpa using string
            exact ⟨value, q, more, rfl⟩
        refine .headed [⟨.ident command, p⟩, ⟨.string value, q⟩] (.nothing (.single command value))
          (fun n behind _ _ => ⟨behind.length, Nat.le_refl _, rfl⟩) ?_
        rintro ks _ rest ⟨rfl, rfl⟩
        exact .single
      · refine .headed [⟨.ident command, p⟩] (paramsVerdict command)
          (fun n behind same _ => ⟨behind.length, Nat.le_refl _, ?_⟩) ?_
        · rw [← same] at single
          match behind with
          | [] => rfl
          | ⟨k, q⟩ :: more =>
            cases k with
            | string value => simp at single
            | _ => rfl
        · rintro ks _ rest ⟨param, _, text, params, _, more, rfl, rfl⟩
          exact .multi text more
    | _ => exact .stopped .stepCommand (fun ⟨other, _⟩ => nomatch other) fun _ _ => rfl

theorem moreStepsVerdict : Verdict (Star StepText) readMoreSteps ts := by
  refine .many (fun k => ∃ name, k = .ident name) (fun _ h => nomatch h) (fun n ts free _ => ?_)
    (fun n token ts named enough => ?_) fun us _ => stepVerdict
  · exact readMoreSteps_nil (by cases ts <;> simp_all [kinds])
  · obtain ⟨m, rfl⟩ : ∃ m, n = m + 1 := ⟨n - 1, by simp at enough; omega⟩
    obtain ⟨k, p⟩ := token
    obtain ⟨name, rfl⟩ : ∃ name, k = .ident name := named
    rfl

theorem stepsVerdict : Verdict (Block StepText) (fun _ => readSteps) ts :=
  (Verdict.block (fun _ h => nomatch h) (fun _ _ => stepVerdict)
    fun _ _ => moreStepsVerdict.measured).congr fun _ _ _ _ => rfl

theorem boolVerdict : Verdict BoolText (fun _ => readBool) ts := by
  have one : Verdict (OneToken .bool) (fun _ => readBool) ts :=
    .token (fun k b => by cases k <;> simp) (by simp)
  refine one.mono ?_
  rintro _ b rest rfl
  exact .bool

/-- What stands behind the opening brace of a stage. -/
def PartsText (name : String) : Form Stage := fun ks =>
  StageText (.keyword .stage :: .leftParen :: .string name :: .rightParen :: .leftBrace :: ks)

instance (name : String) : Completable (PartsText name) :=
  ⟨[.rightBrace], ⟨name, none, [], none, []⟩, fun _ => .stage .absent .absent .absent .absent⟩

theorem partsVerdict (ts : List Token) (name : String)
    (block : ∀ us, us.length ≤ ts.length → Verdict (Block StageText) readStageBlock us) :
    Verdict (PartsText name) (fun n ts => do
      let (agent, ts) ← readOptional .agent none
        (fun ts => (readAgent ts).map fun (a, rest) => (some a, rest)) ts
      let (steps, ts) ← readOptional .steps [] readSteps ts
      let (failFast, ts) ← readOptional .failFast none
        (fun ts => (readBool ts).map fun (b, rest) => (some b, rest)) ts
      let (parallel, ts) ← readOptional .parallel [] (readStageBlock n) ts
      let ts ← expect .rightBrace ts
      .ok (⟨name, agent, steps, failFast, parallel⟩, ts)) ts := by
  have close (stage : Stage) (us : List Token) : Verdict (Following .rightBrace _) _ us :=
    .expect (fun _ ts => .ok (stage, ts)) 0 (Nat.zero_le _) fun _ _ _ => .nothing stage
  have parallel (agent : Option Agent) (steps : List Step) (failFast : Option Bool)
      (us : List Token) (le : us.length ≤ ts.length) :=
    (Verdict.listed .parallel us fun us lt => block us (by omega)).andThen _
      fun parallel rest _ => close ⟨name, agent, steps, failFast, parallel⟩ rest
  have failFast (agent : Option Agent) (steps : List Step) (us : List Token)
      (le : us.length ≤ ts.length) :=
    (Verdict.maybe .failFast us fun _ _ => boolVerdict).andThen _
      fun failFast rest shorter => parallel agent steps failFast rest (by omega)
  have steps (agent : Option Agent) (us : List Token) (le : us.length ≤ ts.length) :=
    (Verdict.listed .steps us fun _ _ => stepsVerdict).andThen _
      fun steps rest shorter => failFast agent steps rest (by omega)
  have whole := (Verdict.maybe .agent ts fun us _ => agentVerdict us).andThen _
    fun agent rest shorter => steps agent rest shorter
  refine (whole.congr fun _ _ _ _ => rfl).mono ?_
  rintro _ _ _ ⟨agent, _, agentText, _, _, ⟨steps, stepsText, rfl⟩, failFast, _, failFastText, _, _,
    ⟨parallel, parallelText, rfl⟩, _, rfl, rfl, rfl⟩
  exact .stage agentText stepsText failFastText parallelText

theorem stageVerdict
    (block : ∀ us, us.length < ts.length → Verdict (Block StageText) readStageBlock us) :
    Verdict StageText readStage ts := by
  have parts (name : String) (us : List Token) (lt : us.length < ts.length) :=
    partsVerdict us name fun vs le => block vs (by omega)
  have brace (name : String) (us : List Token) (lt : us.length < ts.length) :
      Verdict (Following .leftBrace _) _ us :=
    .expect _ 0 (Nat.zero_le 1) fun _ rest same => parts name rest (by simp [same] at lt; omega)
  have paren (name : String) (us : List Token) (lt : us.length < ts.length) :
      Verdict (Following .rightParen _) _ us :=
    .expect _ 0 (Nat.zero_le 1) fun _ rest same => brace name rest (by simp [same] at lt; omega)
  have title (us : List Token) (lt : us.length < ts.length) :=
    (show Verdict (OneToken .string) _ us from
      .string (show Expectation.stageName ≠ .parameter by decide)).andThen _
      fun name rest le => paren name rest (by omega)
  have opening (us : List Token) (lt : us.length < ts.length) :
      Verdict (Following .leftParen _) _ us :=
    .expect _ 0 (Nat.zero_le 1) fun _ rest same => title rest (by simp [same] at lt; omega)
  have whole : Verdict (Following (.keyword .stage) _) _ ts :=
    .expect _ 1 (Nat.le_refl 1) fun _ rest same => opening rest (by simp [same])
  refine (whole.congr fun n ts' _ enough => ?_).mono ?_
  · cases n with
    | zero =>
      obtain rfl := List.length_eq_zero_iff.mp (Nat.le_zero.mp enough)
      rfl
    | succ n => rfl
  · rintro _ _ _ ⟨_, rfl, _, rfl, name, _, rfl, _, rfl, _, rfl, text⟩
    exact text

/-- The verdicts on a stage and on a block of stages, of which either needs the other on fewer
tokens. -/
theorem stageVerdicts (ts : List Token) :
    Verdict StageText readStage ts ∧ Verdict (Block StageText) readStageBlock ts := by
  induction len : ts.length using Nat.strongRecOn generalizing ts with
  | ind m ih =>
    subst len
    refine ⟨stageVerdict fun us lt => (ih _ lt us rfl).2, ?_⟩
    have nonempty (stage : Stage) : ¬ StageText [] stage [] := by
      intro text
      cases text
    have more (us : List Token) (lt : us.length < ts.length) :
        Verdict (Star StageText) (fun n => readMoreStages (n + 1)) us := by
      refine .many (· = .keyword .stage) nonempty (fun n ts free _ => ?_)
        (fun n token ts announced enough => ?_) fun vs le => (ih _ (by omega) vs rfl).1
      · unfold readMoreStages
        split <;> simp_all
      · obtain ⟨m, rfl⟩ : ∃ m, n = m + 1 := ⟨n - 1, by simp at enough; omega⟩
        obtain ⟨k, p⟩ := token
        obtain rfl : k = .keyword .stage := announced
        rw [readMoreStages]
        rfl
    refine (Verdict.block nonempty (fun us lt => (ih _ lt us rfl).1) more).congr
      fun n ts' _ enough => ?_
    cases n with
    | zero =>
      obtain rfl := List.length_eq_zero_iff.mp (Nat.le_zero.mp enough)
      rfl
    | succ n =>
      cases n with
      | zero =>
        -- Without fuel no stage is read, so what would be done behind it does not matter.
        rw [readStageBlock]
        cases expect .leftBrace ts' <;> rfl
      | succ n => rfl

/-- Reads a pipeline off the front of some tokens. -/
def readFront : Reader Pipeline := fun n ts => do
  let rest ← expect (.keyword .pipeline) ts
  let rest ← expect .leftBrace rest
  let rest ← expect (.keyword .agent) rest
  let (agent, rest) ← readAgent rest
  let rest ← expect (.keyword .stages) rest
  let (stages, rest) ← readStageBlock n rest
  let rest ← expect .rightBrace rest
  .ok (⟨agent, stages⟩, rest)

/-- A whole script is a pipeline with nothing behind it. -/
theorem readPipeline_eq (ts : List Token) :
    readPipeline ts = readFront ts.length ts >>= fun x =>
      match x.2 with
      | [] => .ok x.1
      | token :: _ => .error (.unexpectedToken .endOfInput token) := by
  simp only [readPipeline, readFront, bind_assoc]
  rfl

theorem frontVerdict (ts : List Token) : Verdict PipelineText readFront ts := by
  have close (p : Pipeline) (us : List Token) : Verdict (Following .rightBrace _) _ us :=
    .expect (fun _ ts => .ok (p, ts)) 0 (Nat.zero_le _) fun _ _ _ => .nothing p
  have stages (agent : Agent) (us : List Token) :=
    (stageVerdicts us).2.andThen _ fun stages rest _ => close ⟨agent, stages⟩ rest
  have word (agent : Agent) (us : List Token) : Verdict (Following (.keyword .stages) _) _ us :=
    .expect _ 0 (Nat.zero_le 1) fun _ rest _ => stages agent rest
  have agent (us : List Token) :=
    (agentVerdict us).andThen _ fun agent rest _ => word agent rest
  have word' (us : List Token) : Verdict (Following (.keyword .agent) _) _ us :=
    .expect _ 0 (Nat.zero_le 1) fun _ rest _ => agent rest
  have brace (us : List Token) : Verdict (Following .leftBrace _) _ us :=
    .expect _ 0 (Nat.zero_le 1) fun _ rest _ => word' rest
  have whole : Verdict (Following (.keyword .pipeline) _) _ ts :=
    .expect _ 0 (Nat.zero_le 1) fun _ rest _ => brace rest
  refine (whole.congr fun _ _ _ _ => rfl).mono ?_
  rintro _ _ _ ⟨_, rfl, _, rfl, _, rfl, agent, _, agentText, _, rfl, stages, _, stagesText,
    _, rfl, rfl, rfl⟩
  exact .pipeline agentText stagesText

/-! ### Rejected scripts -/

/-- Some sentence begins with these tokens. -/
def Begins (ks : List TokenKind) : Prop := ∃ more p, Sentence (ks ++ more) p

/-- Reading some tokens fails whatever stands behind them, so that no sentence begins with them. -/
theorem not_begins_of_fails {ts : List Token} (e : SyntaxError)
    (fails : ∀ more, readPipeline (ts ++ more) = .error e) : ¬ Begins (kinds ts) := by
  rintro ⟨more, p, text⟩
  have read : readPipeline (ts ++ more.map (⟨·, .start⟩)) = .ok p :=
    readPipeline_complete (by simpa [kinds, Function.comp_def] using text)
  cases (fails _).symm.trans read

/-- What an error tells about the tokens: that they end too early, or that one of them is the
earliest that no sentence allows. Only a name in the place of a parameter is reported though a
sentence may begin up to there, as no colon follows; then none begins up to the token behind it. -/
def Earliest (ts : List Token) : SyntaxError → Prop
  | .unexpectedEnd _ => ∃ more p, more ≠ [] ∧ Sentence (kinds ts ++ more) p
  | .unexpectedToken expected token => ∃ before after, ts = before ++ token :: after ∧
    Begins (kinds before) ∧
    (¬ Begins (kinds (before ++ [token])) ∨
      expected = .parameter ∧ (∃ name, token.kind = .ident name) ∧
        Begins (kinds before ++ [token.kind, .colon]) ∧ after.head?.map (·.kind) ≠ some .colon ∧
        ∀ next ∈ after.head?, ¬ Begins (kinds (before ++ [token, next])))
  | _ => False

theorem earliest_behind (after : List Token) {used : List Token} {token : Token} {p : Pipeline}
    (text : Sentence (kinds used) p)
    (front : ∀ more, readFront (used ++ token :: more).length (used ++ token :: more) =
      .ok (p, token :: more)) :
    readPipeline (used ++ token :: after) = .error (.unexpectedToken .endOfInput token) ∧
      Earliest (used ++ token :: after) (.unexpectedToken .endOfInput token) := by
  have fails (more : List Token) :
      readPipeline (used ++ token :: more) = .error (.unexpectedToken .endOfInput token) := by
    rw [readPipeline_eq, front more]
    rfl
  refine ⟨fails after, used, after, rfl, ⟨[], p, by simpa using text⟩,
    .inl (not_begins_of_fails (.unexpectedToken .endOfInput token) fun more => ?_)⟩
  rw [List.append_assoc]
  exact fails more

/-- A rejected script goes wrong at the earliest token that no sentence allows, or at its end. -/
theorem errors_are_the_earliest (ts : List Token) (e : SyntaxError)
    (rejected : readPipeline ts = .error e) : Earliest ts e := by
  cases frontVerdict ts with
  | @read used rest p split text steady =>
    subst split
    cases rest with
    | nil =>
      rw [readPipeline_eq, steady _ [] rfl (Nat.le_refl _)] at rejected
      cases rejected
    | cons token after =>
      obtain ⟨fails, earliest⟩ := earliest_behind after
        (by simpa [Sentence] using text []) fun more => steady _ _ rfl (Nat.le_refl _)
      cases fails.symm.trans rejected
      exact earliest
  | @ended expected more p failed missing text =>
    rw [readPipeline_eq, failed _ (Nat.le_refl _)] at rejected
    cases rejected
    exact ⟨more, p, missing, by simpa [Sentence] using text []⟩
  | @fault expected token before after more p split text steady ahead =>
    subst split
    have fails (behind : List Token)
        (looks : LooksAhead expected token → behind.head? = after.head?) :
        readPipeline (before ++ token :: behind) = .error (.unexpectedToken expected token) := by
      rw [readPipeline_eq, steady _ behind looks (Nat.le_refl _)]
      rfl
    cases (fails after fun _ => rfl).symm.trans rejected
    refine ⟨before, after, rfl, ⟨more, p, by simpa [Sentence] using text []⟩, ?_⟩
    by_cases looks : LooksAhead expected token
    · obtain ⟨colon, more, p, text⟩ := ahead looks
      refine .inr ⟨looks.1, looks.2, ⟨more, p, by simpa [Sentence] using text []⟩, colon,
        fun next follows => not_begins_of_fails (.unexpectedToken expected token) fun more => ?_⟩
      rw [List.append_assoc]
      exact fails (next :: more) fun _ => follows.symm
    · refine .inl (not_begins_of_fails (.unexpectedToken expected token) fun more => ?_)
      rw [List.append_assoc]
      exact fails more fun yes => absurd yes looks

namespace MissingColon

/-- A step that names its parameter and forgets the colon: the name is reported, though it is the
string behind it that is out of place. -/
def source : String :=
  "pipeline \x7b agent none stages \x7b stage('A') \x7b steps \x7b checkout url 'u' "
    ++ "\x7d \x7d \x7d \x7d"

def name : Token := ⟨.ident "url", ⟨1, 62⟩⟩

theorem name_is_reported : ∃ ts, tokenize source = .ok ts ∧
    readPipeline ts = .error (.unexpectedToken .parameter name) ∧
    Earliest ts (.unexpectedToken .parameter name) := by
  have read : (match tokenize source with
      | .ok ts => match readPipeline ts with
        | .error e => some e
        | .ok _ => none
      | .error _ => none) = some (.unexpectedToken .parameter name) := by decide +kernel
  split at read
  next ts tokenized =>
    split at read
    next e rejected =>
      obtain rfl := Option.some.inj read
      exact ⟨ts, tokenized, rejected, errors_are_the_earliest ts _ rejected⟩
    next => cases read
  next => cases read

end MissingColon

end PipelineRunner.Script
