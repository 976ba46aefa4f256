import PipelineRunner.Proofs.Grammar

/-! Scripts as they are read and as they are written. A text is read exactly if it is made of proper
lexemes each of which ends where the next one begins; its tokens are those of the lexemes. Tokens
may be written with any gaps of blanks and comments between them, each string in a quote that it
does not contain; they are read back from there, and only such tokens are ever read. -/

namespace PipelineRunner.Script

/-! ### Classes of characters -/

/-- A character that starts a word starts nothing else. -/
theorem isWordStart_apart {c : Char} (h : isWordStart c = true) :
    Text.isBlank c = false ∧ c ≠ '/' ∧ c ≠ '\'' ∧ c ≠ '"' := by
  have range : 65 ≤ c.toNat ∧ c.toNat ≤ 122 := by
    simp only [isWordStart, Bool.or_eq_true, Bool.and_eq_true, decide_eq_true_eq, beq_iff_eq,
      Char.le_def, UInt32.le_iff_toNat_le] at h
    rcases h with (⟨low, high⟩ | ⟨low, high⟩) | rfl
    · exact ⟨Nat.le_trans (by decide) low, high⟩
    · exact ⟨low, Nat.le_trans high (by decide)⟩
    · decide
  refine ⟨?_, ?_, ?_, ?_⟩
  · simp only [Text.isBlank, Bool.or_eq_false_iff, Bool.and_eq_false_iff, decide_eq_false_iff_not,
      beq_eq_false_iff_ne]
    omega
  all_goals
    rintro rfl
    exact absurd range (by decide)

theorem ofPunctuation?_apart {c : Char} {kind : TokenKind}
    (h : TokenKind.ofPunctuation? c = some kind) :
    Text.isBlank c = false ∧ c ≠ '/' ∧ c ≠ '\'' ∧ c ≠ '"' ∧ isWordStart c = false := by
  have among : c ∈ ['\x7b', '\x7d', '(', ')', ':', ','] := by
    unfold TokenKind.ofPunctuation? at h
    grind
  simp only [List.mem_cons, List.not_mem_nil, or_false] at among
  rcases among with rfl | rfl | rfl | rfl | rfl | rfl <;> decide

/-- A blank goes on with no word, and neither does a slash. -/
theorem isWordPart_of_isBlank {c : Char} (h : Text.isBlank c = true) : isWordPart c = false := by
  rw [isWordPart, Bool.or_eq_false_iff]
  constructor
  · refine Bool.eq_false_iff.mpr fun start => ?_
    rw [(isWordStart_apart start).1] at h
    cases h
  · simp only [Text.isBlank, Bool.or_eq_true, Bool.and_eq_true, decide_eq_true_eq, beq_iff_eq] at h
    simp only [Bool.and_eq_false_iff, decide_eq_false_iff_not, Char.le_def, UInt32.le_iff_toNat_le,
      Nat.not_le]
    have zero : '0'.val.toNat = 48 := rfl
    have nine : '9'.val.toNat = 57 := rfl
    have value : c.val.toNat = c.toNat := rfl
    omega

/-! ### Lexemes -/

namespace Lexeme

/-- The characters of a lexeme make it one. -/
def Proper : Lexeme → Prop
  | blank c => Text.isBlank c = true
  | comment body => '\n' ∉ body
  | quoted quote body => (quote = '\'' ∨ quote = '"') ∧ quote ∉ body
  | word first more => isWordStart first = true ∧ ∀ c ∈ more, isWordPart c = true
  | punctuation c kind => TokenKind.ofPunctuation? c = some kind

/-- A lexeme does not go on behind its characters. -/
def EndsBefore (rest : List Char) : Lexeme → Prop
  | comment _ => ∀ c ∈ rest.head?, c = '\n'
  | word _ _ => ∀ c ∈ rest.head?, isWordPart c = false
  | _ => True

end Lexeme

/-- What is taken and what is left of a list, by a test. -/
theorem takeWhile_eq_iff {p : Char → Bool} {cs body rest : List Char} :
    cs.takeWhile p = body ∧ cs.dropWhile p = rest ↔
      cs = body ++ rest ∧ (∀ c ∈ body, p c = true) ∧ ∀ c ∈ rest.head?, p c = false := by
  constructor
  · rintro ⟨rfl, rfl⟩
    refine ⟨List.takeWhile_append_dropWhile.symm, List.all_eq_true.mp List.all_takeWhile, ?_⟩
    intro c head
    have stops := List.head?_dropWhile_not p cs
    rwa [Option.mem_def.mp head] at stops
  · rintro ⟨rfl, all, stops⟩
    rw [List.takeWhile_append_of_pos all, List.dropWhile_append_of_pos all]
    cases rest with
    | nil => simp
    | cons c rest => simp [stops c rfl]

theorem splitQuote_eq_some {quote : Char} {cs body rest : List Char} :
    splitQuote quote cs = some (body, rest) ↔ cs = body ++ quote :: rest ∧ quote ∉ body := by
  induction cs generalizing body with
  | nil => simp [splitQuote]
  | cons c cs ih =>
    simp only [splitQuote]
    split
    next here =>
      subst here
      cases body <;> grind
    next other =>
      simp only [Option.map_eq_some_iff, Prod.exists, Prod.mk.injEq]
      cases body <;> grind

theorem lexeme_sound {c : Char} {cs rest : List Char} {l : Lexeme}
    (h : lexeme c cs = .ok (l, rest)) :
    c :: cs = l.chars ++ rest ∧ l.Proper ∧ l.EndsBefore rest := by
  unfold lexeme at h
  split at h
  next blank =>
    cases h
    exact ⟨rfl, blank, trivial⟩
  split at h
  next slash =>
    split at h
    next more =>
      cases h
      obtain ⟨split, line, ends⟩ :=
        (@takeWhile_eq_iff (fun c => c != '\n') more _ _).mp ⟨rfl, rfl⟩
      refine ⟨by simp [slash, Lexeme.chars], fun mem => by simpa using line _ mem, ?_⟩
      exact fun c head => by simpa using ends c head
    next => cases h
  split at h
  next quote =>
    split at h
    next body more closed =>
      cases h
      obtain ⟨rfl, open_⟩ := splitQuote_eq_some.mp closed
      exact ⟨by simp [Lexeme.chars], ⟨by simpa using quote, open_⟩, trivial⟩
    next => cases h
  split at h
  next start =>
    cases h
    obtain ⟨split, part, ends⟩ := (@takeWhile_eq_iff isWordPart cs _ _).mp ⟨rfl, rfl⟩
    exact ⟨by simp [Lexeme.chars], ⟨start, part⟩, ends⟩
  next =>
    split at h
    next kind known =>
      cases h
      exact ⟨rfl, known, trivial⟩
    next => cases h

theorem lexeme_complete {c : Char} {cs rest : List Char} {l : Lexeme}
    (split : c :: cs = l.chars ++ rest) (proper : l.Proper) (ends : l.EndsBefore rest) :
    lexeme c cs = .ok (l, rest) := by
  unfold lexeme
  cases l with
  | blank d =>
    obtain ⟨rfl, rfl⟩ := List.cons.inj split
    simp [show Text.isBlank c = true from proper]
  | comment body =>
    obtain ⟨rfl, rfl⟩ := List.cons.inj split
    obtain ⟨taken, left⟩ := (takeWhile_eq_iff (p := fun c => c != '\n')).mpr
      ⟨rfl, fun c mem => by simpa using ne_of_mem_of_not_mem mem proper,
        fun c head => by simpa using ends c head⟩
    simp [show Text.isBlank '/' = false by decide, taken, left]
  | quoted quote body =>
    obtain ⟨rfl, rfl⟩ := List.cons.inj split
    obtain ⟨quote, open_⟩ := proper
    have closed : splitQuote c (body ++ c :: rest) = some (body, rest) :=
      splitQuote_eq_some.mpr ⟨rfl, open_⟩
    have apart : Text.isBlank c = false ∧ c ≠ '/' := by
      rcases quote with rfl | rfl <;> decide
    simp [apart, quote, closed]
  | word first more =>
    obtain ⟨rfl, rfl⟩ := List.cons.inj split
    obtain ⟨start, part⟩ := proper
    obtain ⟨taken, left⟩ := takeWhile_eq_iff.mpr ⟨rfl, part, ends⟩
    simp [isWordStart_apart start, start, taken, left]
  | punctuation d kind =>
    obtain ⟨rfl, rfl⟩ := List.cons.inj split
    have known : TokenKind.ofPunctuation? c = some kind := proper
    simp [ofPunctuation?_apart known, known]

/-- The lexeme at the head of a text is the only proper one that ends there. -/
theorem lexeme_eq_ok {c : Char} {cs rest : List Char} {l : Lexeme} :
    lexeme c cs = .ok (l, rest) ↔ c :: cs = l.chars ++ rest ∧ l.Proper ∧ l.EndsBefore rest :=
  ⟨lexeme_sound, fun ⟨split, proper, ends⟩ => lexeme_complete split proper ends⟩

/-! ### Texts -/

/-- A text is made of these lexemes. -/
inductive MadeOf : List Lexeme → List Char → Prop where
  | nil : MadeOf [] []
  | cons {l : Lexeme} {ls : List Lexeme} {rest : List Char} (proper : l.Proper)
      (ends : l.EndsBefore rest) (others : MadeOf ls rest) : MadeOf (l :: ls) (l.chars ++ rest)

/-- The tokens among some lexemes that start at a place. -/
def tokensAmong (p : Position) : List Lexeme → List Token
  | [] => []
  | l :: ls =>
    (l.kind?.map fun kind => ⟨kind, p⟩).toList ++ tokensAmong (p.afterAll l.chars) ls

theorem kinds_tokensAmong (p : Position) (ls : List Lexeme) :
    (tokensAmong p ls).map (·.kind) = ls.filterMap Lexeme.kind? := by
  induction ls generalizing p with
  | nil => rfl
  | cons l ls ih => cases h : l.kind? <;> simp [tokensAmong, h, ih]

/-- The lexeme at the head of a text that is made of lexemes is the first of them. -/
theorem MadeOf.cons_iff {ls : List Lexeme} {c : Char} {cs : List Char} :
    MadeOf ls (c :: cs) ↔
      ∃ l rest more, lexeme c cs = .ok (l, rest) ∧ MadeOf more rest ∧ ls = l :: more := by
  constructor
  · intro made
    generalize whole : c :: cs = all at made
    cases made with
    | nil => cases whole
    | @cons l more rest proper ends others =>
      exact ⟨l, rest, more, lexeme_eq_ok.mpr ⟨whole, proper, ends⟩, others, rfl⟩
  · rintro ⟨l, rest, more, read, others, rfl⟩
    obtain ⟨split, proper, ends⟩ := lexeme_eq_ok.mp read
    exact split ▸ .cons proper ends others

theorem MadeOf.nil_iff {ls : List Lexeme} : MadeOf ls [] ↔ ls = [] := by
  constructor
  · intro made
    generalize whole : [] = all at made
    cases made with
    | nil => rfl
    | cons => simp [Lexeme.chars_ne_nil] at whole
  · rintro rfl
    exact .nil

theorem lexeme_shorter {c : Char} {cs rest : List Char} {l : Lexeme}
    (h : lexeme c cs = .ok (l, rest)) : rest.length ≤ cs.length := by
  have lengths := congrArg List.length (lexeme_sound h).1
  have taken := List.length_pos_iff.mpr l.chars_ne_nil
  simp only [List.length_cons, List.length_append] at lengths
  omega

theorem tokensFrom_nil (p : Position) (fuel : Nat) : tokensFrom p fuel [] = .ok [] := by
  cases fuel <;> rfl

/-- Each lexeme uses up fuel, but a text has no more lexemes than characters. -/
theorem tokensFrom_eq_ok {p : Position} {fuel : Nat} {cs : List Char} {ts : List Token}
    (enough : cs.length ≤ fuel) :
    tokensFrom p fuel cs = .ok ts ↔ ∃ ls, MadeOf ls cs ∧ ts = tokensAmong p ls := by
  induction fuel generalizing p cs ts with
  | zero =>
    rw [List.length_eq_zero_iff.mp (Nat.le_zero.mp enough), tokensFrom_nil]
    simp [MadeOf.nil_iff, tokensAmong, eq_comm]
  | succ fuel ih =>
    cases cs with
    | nil =>
      rw [tokensFrom_nil]
      simp [MadeOf.nil_iff, tokensAmong, eq_comm]
    | cons c cs =>
      simp only [MadeOf.cons_iff]
      unfold tokensFrom
      cases read : lexeme c cs with
      | error fault => simp
      | ok found =>
        obtain ⟨l, rest⟩ := found
        have shorter := lexeme_shorter read
        have later : ∀ {ts}, tokensFrom (p.afterAll l.chars) fuel rest = .ok ts ↔
            ∃ ls, MadeOf ls rest ∧ ts = tokensAmong (p.afterAll l.chars) ls :=
          ih (Nat.le_trans shorter (Nat.le_of_succ_le_succ enough))
        constructor
        · intro h
          obtain ⟨others, readOthers, h⟩ := bind_eq_ok.mp h
          obtain ⟨more, made, rfl⟩ := later.mp readOthers
          refine ⟨l :: more, ⟨l, rest, more, rfl, made, rfl⟩, ?_⟩
          split at h <;> rename_i kind <;> cases h <;> simp [tokensAmong, kind]
        · rintro ⟨_, ⟨_, _, more, same, made, rfl⟩, rfl⟩
          cases same
          refine bind_eq_ok.mpr ⟨_, later.mpr ⟨more, made, rfl⟩, ?_⟩
          cases kind : l.kind? <;> simp [tokensAmong, kind]

/-- A text has tokens of these kinds exactly if it is made of lexemes of these kinds, blanks and
comments aside. -/
theorem tokenize_kinds {source : String} {ks : List TokenKind} :
    (∃ ts, tokenize source = .ok ts ∧ kinds ts = ks) ↔
      ∃ ls, MadeOf ls source.toList ∧ ls.filterMap Lexeme.kind? = ks := by
  simp only [tokenize, tokensFrom_eq_ok (Nat.le_refl _)]
  constructor
  · rintro ⟨_, ⟨ls, made, rfl⟩, rfl⟩
    exact ⟨ls, made, (kinds_tokensAmong .start ls).symm⟩
  · rintro ⟨ls, made, rfl⟩
    exact ⟨_, ⟨ls, made, rfl⟩, kinds_tokensAmong .start ls⟩


/-! ### Words and strings -/

/-- A name of the grammar: a word that means nothing by itself. -/
structure IsName (name : String) : Prop where
  word : ∃ first more, name.toList = first :: more ∧ isWordStart first = true ∧
    ∀ c ∈ more, isWordPart c = true
  not_keyword : ∀ k : Keyword, name ≠ k.text
  not_bool : name ≠ "true" ∧ name ≠ "false"

/-- There is a quote that a string does not contain. -/
def Quotable (s : String) : Prop := '\'' ∉ s.toList ∨ '"' ∉ s.toList

/-- How a token may be written. -/
def Spells : TokenKind → List Char → Prop
  | .keyword k, cs => cs = k.text.toList
  | .string value, cs => ∃ quote, (quote = '\'' ∨ quote = '"') ∧ quote ∉ value.toList ∧
      cs = quote :: (value.toList ++ [quote])
  | .bool b, cs => cs = (if b then "true" else "false").toList
  | .ident name, cs => IsName name ∧ cs = name.toList
  | .leftBrace, cs => cs = ['\x7b']
  | .rightBrace, cs => cs = ['\x7d']
  | .leftParen, cs => cs = ['(']
  | .rightParen, cs => cs = [')']
  | .colon, cs => cs = [':']
  | .comma, cs => cs = [',']

/-- There is a way to write the token. -/
def Spellable (kind : TokenKind) : Prop := ∃ cs, Spells kind cs

theorem ofText?_eq_some {word : String} {k : Keyword} :
    Keyword.ofText? word = some k ↔ word = k.text := by
  constructor
  · intro h
    exact (beq_iff_eq.mp (List.find?_some (p := fun k => Keyword.text k == word) h)).symm
  · rintro rfl
    exact Keyword.ofText?_text k

theorem ofText?_eq_none {word : String} :
    Keyword.ofText? word = none ↔ ∀ k : Keyword, word ≠ k.text := by
  simp [Option.eq_none_iff_forall_ne_some, ofText?_eq_some]

/-- A word is a name exactly if it is neither a keyword nor a truth value. -/
theorem ofWord_eq_ident {word name : String} :
    TokenKind.ofWord word = .ident name ↔
      word = name ∧ (∀ k : Keyword, word ≠ k.text) ∧ word ≠ "true" ∧ word ≠ "false" := by
  unfold TokenKind.ofWord
  cases known : Keyword.ofText? word with
  | some k =>
    simp only [reduceCtorEq, false_iff, not_and]
    exact fun _ other => absurd (ofText?_eq_some.mp known) (other k)
  | none =>
    simp only [ofText?_eq_none.mp known, ne_eq, not_false_eq_true, implies_true, true_and]
    grind

@[simp] theorem ofWord_keyword (k : Keyword) : TokenKind.ofWord k.text = .keyword k := by
  simp [TokenKind.ofWord]

@[simp] theorem ofWord_bool (b : Bool) :
    TokenKind.ofWord (if b then "true" else "false") = .bool b := by
  cases b <;> decide

/-- Every word with a meaning could be a name by its characters. -/
theorem word_of_keyword (k : Keyword) :
    ∃ first more, k.text.toList = first :: more ∧ isWordStart first = true ∧
      ∀ c ∈ more, isWordPart c = true := by
  cases k <;> exact ⟨_, _, rfl, by decide, List.all_eq_true.mp (by decide)⟩

theorem word_of_bool (b : Bool) :
    ∃ first more, (if b then "true" else "false").toList = first :: more ∧
      isWordStart first = true ∧ ∀ c ∈ more, isWordPart c = true := by
  cases b <;> exact ⟨_, _, rfl, by decide, List.all_eq_true.mp (by decide)⟩

section

variable (k : Keyword) (b : Bool) (s : String)

@[simp] theorem spellable_keyword : Spellable (.keyword k) := ⟨_, rfl⟩
@[simp] theorem spellable_bool : Spellable (.bool b) := ⟨_, rfl⟩
@[simp] theorem spellable_leftBrace : Spellable .leftBrace := ⟨_, rfl⟩
@[simp] theorem spellable_rightBrace : Spellable .rightBrace := ⟨_, rfl⟩
@[simp] theorem spellable_leftParen : Spellable .leftParen := ⟨_, rfl⟩
@[simp] theorem spellable_rightParen : Spellable .rightParen := ⟨_, rfl⟩
@[simp] theorem spellable_colon : Spellable .colon := ⟨_, rfl⟩
@[simp] theorem spellable_comma : Spellable .comma := ⟨_, rfl⟩

@[simp] theorem spellable_string : Spellable (.string s) ↔ Quotable s := by
  constructor
  · rintro ⟨_, _, rfl | rfl, outside, -⟩
    · exact .inl outside
    · exact .inr outside
  · rintro (outside | outside)
    · exact ⟨_, _, .inl rfl, outside, rfl⟩
    · exact ⟨_, _, .inr rfl, outside, rfl⟩

@[simp] theorem spellable_ident : Spellable (.ident s) ↔ IsName s :=
  ⟨fun ⟨_, name, _⟩ => name, fun name => ⟨_, name, rfl⟩⟩

end

/-! ### Lexemes and their spelling -/

/-- No lexeme goes on with this text: where there is any, it starts with no part of a word. -/
def Apart (rest : List Char) : Prop := ∀ c ∈ rest.head?, isWordPart c = false

/-- Whether a token is a word, which takes all of its parts that follow each other. -/
def isWord : TokenKind → Bool
  | .keyword _ | .bool _ | .ident _ => true
  | _ => false

/-- A word is a proper lexeme wherever nothing goes on with it. -/
theorem lexeme_of_word {word : String} {kind : TokenKind} (same : TokenKind.ofWord word = kind)
    (letters : ∃ first more, word.toList = first :: more ∧ isWordStart first = true ∧
      ∀ c ∈ more, isWordPart c = true) (known : isWord kind = true) :
    ∃ l : Lexeme, l.Proper ∧ l.chars = word.toList ∧ l.kind? = some kind ∧
      ∀ rest, (isWord kind = true → Apart rest) → l.EndsBefore rest := by
  obtain ⟨first, more, split, start, part⟩ := letters
  refine ⟨.word first more, ⟨start, part⟩, split.symm, ?_, fun _ apart => apart known⟩
  simp [Lexeme.kind?, ← split, same]

theorem lexeme_of_punctuation {c : Char} {kind : TokenKind}
    (known : TokenKind.ofPunctuation? c = some kind) :
    ∃ l : Lexeme, l.Proper ∧ l.chars = [c] ∧ l.kind? = some kind ∧
      ∀ rest, (isWord kind = true → Apart rest) → l.EndsBefore rest :=
  ⟨.punctuation c kind, known, rfl, rfl, fun _ _ => trivial⟩

theorem Spells.lexeme {kind : TokenKind} {cs : List Char} (spelled : Spells kind cs) :
    ∃ l : Lexeme, l.Proper ∧ l.chars = cs ∧ l.kind? = some kind ∧
      ∀ rest, (isWord kind = true → Apart rest) → l.EndsBefore rest := by
  cases kind with
  | keyword k =>
    obtain rfl := spelled
    exact lexeme_of_word (ofWord_keyword k) (word_of_keyword k) rfl
  | bool b =>
    obtain rfl := spelled
    exact lexeme_of_word (ofWord_bool b) (word_of_bool b) rfl
  | ident name =>
    obtain ⟨isName, rfl⟩ := spelled
    exact lexeme_of_word (ofWord_eq_ident.mpr ⟨rfl, isName.not_keyword, isName.not_bool⟩)
      isName.word rfl
  | string value =>
    obtain ⟨quote, known, outside, rfl⟩ := spelled
    exact ⟨.quoted quote value.toList, ⟨known, outside⟩, rfl, by simp [Lexeme.kind?],
      fun _ _ => trivial⟩
  | leftBrace | rightBrace | leftParen | rightParen | colon | comma =>
    obtain rfl := spelled
    exact lexeme_of_punctuation (by decide)

/-- The words with a meaning are spelled as they are. -/
theorem ofWord_spells (word : String) (letters : ∃ first more, word.toList = first :: more ∧
      isWordStart first = true ∧ ∀ c ∈ more, isWordPart c = true) :
    Spells (TokenKind.ofWord word) word.toList ∧ isWord (TokenKind.ofWord word) = true := by
  cases kind : TokenKind.ofWord word with
  | ident name =>
    obtain ⟨rfl, not_keyword, not_bool⟩ := ofWord_eq_ident.mp kind
    exact ⟨⟨⟨letters, not_keyword, not_bool⟩, rfl⟩, rfl⟩
  | keyword k =>
    unfold TokenKind.ofWord at kind
    split at kind
    next known =>
      cases kind
      exact ⟨congrArg String.toList (ofText?_eq_some.mp known), rfl⟩
    next => grind
  | bool b =>
    unfold TokenKind.ofWord at kind
    grind [Spells, isWord]
  | _ =>
    unfold TokenKind.ofWord at kind
    grind

theorem Lexeme.Proper.spells {l : Lexeme} {kind : TokenKind} (proper : l.Proper)
    (same : l.kind? = some kind) : Spells kind l.chars := by
  cases l with
  | blank c => cases same
  | comment body => cases same
  | quoted quote body =>
    cases same
    obtain ⟨known, outside⟩ := proper
    exact ⟨quote, known, by simpa using outside, by simp [Lexeme.chars]⟩
  | word first more =>
    obtain rfl := Option.some.inj same
    simpa [Lexeme.chars] using
      (ofWord_spells (String.ofList (first :: more)) ⟨first, more, by simp, proper⟩).1
  | punctuation c kind' =>
    obtain rfl := Option.some.inj same
    have known : TokenKind.ofPunctuation? c = some kind' := proper
    unfold TokenKind.ofPunctuation? at known
    grind [Spells, Lexeme.chars]

/-- The tokens of a text are spellable: the text spells them. -/
theorem Lexeme.Proper.spellable {l : Lexeme} {kind : TokenKind} (proper : l.Proper)
    (same : l.kind? = some kind) : Spellable kind :=
  ⟨l.chars, proper.spells same⟩

theorem MadeOf.spellable {ls : List Lexeme} {cs : List Char} (made : MadeOf ls cs) :
    ∀ kind ∈ ls.filterMap Lexeme.kind?, Spellable kind := by
  induction made with
  | nil => simp
  | @cons l ls rest proper ends others ih =>
    intro kind mem
    obtain ⟨l', mem, same⟩ := List.mem_filterMap.mp mem
    rcases List.mem_cons.mp mem with rfl | mem
    · exact proper.spellable same
    · exact ih kind (List.mem_filterMap.mpr ⟨l', mem, same⟩)

/-! ### Gaps -/

/-- Blanks and comments, each comment with the end of its line. -/
inductive Filler : List Char → Prop where
  | nil : Filler []
  | blank {c : Char} {cs : List Char} (blank : Text.isBlank c = true) (others : Filler cs) :
      Filler (c :: cs)
  | comment {body cs : List Char} (line : '\n' ∉ body) (others : Filler cs) :
      Filler ('/' :: '/' :: (body ++ '\n' :: cs))

/-- Tokens that are spelled with gaps between them. Behind the last one anything may be filled in,
or nothing. -/
inductive Spaced : List TokenKind → List Char → Prop where
  | last {kind : TokenKind} {text filler : List Char} (spelled : Spells kind text)
      (filled : Filler filler) : Spaced [kind] (text ++ filler)
  | cons {kind : TokenKind} {kinds : List TokenKind} {text gap rest : List Char}
      (spelled : Spells kind text) (filled : Filler gap) (gapped : gap ≠ [])
      (others : Spaced kinds rest) : Spaced (kind :: kinds) (text ++ (gap ++ rest))

/-- Fillers are apart from the word before them. -/
theorem Filler.apart {cs : List Char} (filled : Filler cs) : Apart cs := by
  cases filled with
  | nil => simp [Apart]
  | blank blank others => simpa [Apart] using isWordPart_of_isBlank blank
  | comment line others => simp [Apart, show isWordPart '/' = false by decide]

theorem Apart.append {cs : List Char} (apart : Apart cs) (some_ : cs ≠ []) (rest : List Char) :
    Apart (cs ++ rest) := by
  cases cs with
  | nil => exact absurd rfl some_
  | cons c cs => simpa [Apart] using apart

/-- A filler is lexemes that are no tokens. -/
theorem Filler.made {cs rest : List Char} {ls : List Lexeme} (filled : Filler cs)
    (made : MadeOf ls rest) :
    ∃ ls', MadeOf ls' (cs ++ rest) ∧ ls'.filterMap Lexeme.kind? = ls.filterMap Lexeme.kind? := by
  induction filled with
  | nil => exact ⟨ls, made, rfl⟩
  | @blank c cs blank others ih =>
    obtain ⟨ls', made', same⟩ := ih
    exact ⟨.blank c :: ls', .cons blank trivial made', by simpa [Lexeme.kind?, List.filterMap_cons] using same⟩
  | @comment body cs line others ih =>
    obtain ⟨ls', made', same⟩ := ih
    refine ⟨.comment body :: .blank '\n' :: ls', ?_, by simpa [Lexeme.kind?, List.filterMap_cons] using same⟩
    have newline : MadeOf (.blank '\n' :: ls') ('\n' :: (cs ++ rest)) :=
      .cons (show Text.isBlank '\n' = true by decide) trivial made'
    simpa [Lexeme.chars] using
      MadeOf.cons (l := .comment body) line (by simp [Lexeme.EndsBefore]) newline

/-- What is spelled with gaps is lexemes of these kinds. -/
theorem Spaced.made {ks : List TokenKind} {cs : List Char} (spaced : Spaced ks cs) :
    ∃ ls, MadeOf ls cs ∧ ls.filterMap Lexeme.kind? = ks := by
  induction spaced with
  | @last kind text filler spelled filled =>
    obtain ⟨l, proper, rfl, is, ends⟩ := spelled.lexeme
    obtain ⟨ls, made, same⟩ := filled.made .nil
    rw [List.append_nil] at made
    exact ⟨l :: ls, .cons proper (ends _ fun _ => filled.apart) made, by simp [is, same]⟩
  | @cons kind kinds text gap rest spelled filled gapped others ih =>
    obtain ⟨l, proper, rfl, is, ends⟩ := spelled.lexeme
    obtain ⟨ls, made, rfl⟩ := ih
    obtain ⟨ls', made', same⟩ := filled.made made
    exact ⟨l :: ls', .cons proper (ends _ fun _ => filled.apart.append gapped rest) made',
      by simp [is, same]⟩

/-- Every list of spellable tokens can be spelled, and with any gap between them. -/
theorem exists_spaced {ks : List TokenKind} (spellable : ∀ kind ∈ ks, Spellable kind)
    (some_ : ks ≠ []) : ∃ cs, Spaced ks cs := by
  induction ks with
  | nil => exact absurd rfl some_
  | cons kind ks ih =>
    obtain ⟨text, spelled⟩ := spellable kind (.head _)
    cases ks with
    | nil => exact ⟨_, .last spelled .nil⟩
    | cons next more =>
      obtain ⟨rest, others⟩ := ih (fun kind mem => spellable kind (.tail _ mem)) (by simp)
      exact ⟨_, .cons spelled (.blank (c := ' ') (by decide) .nil) (by simp) others⟩

end PipelineRunner.Script
