import Mathlib.Data.List.Induction
import PipelineRunner.Proofs.WrittenScripts

/-! Scanning against its definition. What a piece of a text is, is told by its characters and by
what stands behind it; a text is scanned piece by piece from its beginning, and the tokens found so
far stand at the places that are counted off before them. Scanning ends with its tokens exactly if
it gets through the text, and otherwise with a fault at the one place at which no piece fits. -/

namespace PipelineRunner.Script

/-- What may stand between tokens, in front of `rest`: a blank, or a comment that is as long as its
line. -/
inductive Gap : List Char → List Char → Prop where
  | blank {c : Char} {rest : List Char} (blank : Text.isBlank c = true) : Gap [c] rest
  | comment {body rest : List Char} (line : '\n' ∉ body) (ends : ∀ c ∈ rest.head?, c = '\n') :
      Gap ('/' :: '/' :: body) rest

/-- A token, in front of `rest`; a word has to be as long as it can be. -/
structure TokenPiece (kind : TokenKind) (piece rest : List Char) : Prop where
  spelled : Spells kind piece
  whole : isWord kind = true → Apart rest

/-- The place behind some characters at the beginning of a text: one line more than there are line
ends, and one column more than there are characters behind the last of them. -/
def placeBehind (before : List Char) : Position :=
  ⟨before.count '\n' + 1, (before.reverse.takeWhile (· != '\n')).length + 1⟩

/-- Behind `before`, where `rest` is left, these tokens have been found. -/
inductive Scanned : List Char → List Char → List Token → Prop where
  | start {text : List Char} : Scanned [] text []
  | gap {before piece rest : List Char} {ts : List Token}
      (scanned : Scanned before (piece ++ rest) ts) (gap : Gap piece rest) :
      Scanned (before ++ piece) rest ts
  | token {before piece rest : List Char} {ts : List Token} {kind : TokenKind}
      (scanned : Scanned before (piece ++ rest) ts) (token : TokenPiece kind piece rest) :
      Scanned (before ++ piece) rest (ts ++ [⟨kind, placeBehind before⟩])

/-- The characters are a piece in front of `rest`. -/
def Fits (piece rest : List Char) : Prop := Gap piece rest ∨ ∃ kind, TokenPiece kind piece rest

/-- No piece fits at the head of a text. -/
def Misfit (text : List Char) : Prop := ∀ piece rest, text = piece ++ rest → ¬ Fits piece rest

/-- What is wrong at a place where no piece fits: a quote is never closed, and any other character
is out of place itself. -/
inductive FaultAt (p : Position) : List Char → SyntaxError → Prop where
  | unclosed {quote : Char} {rest : List Char} (known : quote = '\'' ∨ quote = '"')
      (misfit : Misfit (quote :: rest)) : FaultAt p (quote :: rest) (.unterminatedString p)
  | stray {c : Char} {rest : List Char} (other : c ≠ '\'' ∧ c ≠ '"') (misfit : Misfit (c :: rest)) :
      FaultAt p (c :: rest) (.unexpectedChar c p)

/-! ### Places -/

theorem placeBehind_concat (before : List Char) (c : Char) :
    placeBehind (before ++ [c]) = (placeBehind before).after c := by
  by_cases newline : c = '\n'
  · simp [placeBehind, Position.after, newline]
  · simp [placeBehind, Position.after, newline]

/-- Going on character by character counts lines and columns. -/
theorem afterAll_placeBehind (before piece : List Char) :
    (placeBehind before).afterAll piece = placeBehind (before ++ piece) := by
  induction piece using List.reverseRecOn with
  | nil => simp [Position.afterAll]
  | append_singleton init c ih =>
    rw [Position.afterAll_append, ih, ← List.append_assoc, placeBehind_concat]
    rfl

/-! ### Pieces are lexemes -/

theorem gap_iff {piece rest : List Char} :
    Gap piece rest ↔
      ∃ l : Lexeme, l.Proper ∧ l.EndsBefore rest ∧ l.chars = piece ∧ l.kind? = none := by
  constructor
  · rintro (⟨blank⟩ | ⟨line, ends⟩)
    · exact ⟨.blank _, blank, trivial, rfl, rfl⟩
    · exact ⟨.comment _, line, ends, rfl, rfl⟩
  · rintro ⟨l, proper, ends, rfl, none⟩
    cases l with
    | blank c => exact .blank proper
    | comment body => exact .comment proper ends
    | quoted | word | punctuation => cases none

theorem tokenPiece_iff {kind : TokenKind} {piece rest : List Char} :
    TokenPiece kind piece rest ↔
      ∃ l : Lexeme, l.Proper ∧ l.EndsBefore rest ∧ l.chars = piece ∧ l.kind? = some kind := by
  constructor
  · rintro ⟨spelled, whole⟩
    obtain ⟨l, proper, same, is, ends⟩ := spelled.lexeme
    exact ⟨l, proper, ends rest whole, same, is⟩
  · rintro ⟨l, proper, ends, rfl, is⟩
    refine ⟨proper.spells is, fun word => ?_⟩
    cases l with
    | blank | comment => cases is
    | word first more => exact ends
    | quoted quote body =>
      cases is
      cases word
    | punctuation c kind' =>
      obtain rfl := Option.some.inj is
      have known : TokenKind.ofPunctuation? c = some kind' := proper
      unfold TokenKind.ofPunctuation? at known
      grind [isWord]

theorem fits_iff {piece rest : List Char} :
    Fits piece rest ↔ ∃ l : Lexeme, l.Proper ∧ l.EndsBefore rest ∧ l.chars = piece := by
  simp only [Fits, gap_iff, tokenPiece_iff]
  constructor
  · rintro (⟨l, proper, ends, same, -⟩ | ⟨kind, l, proper, ends, same, -⟩)
    · exact ⟨l, proper, ends, same⟩
    · exact ⟨l, proper, ends, same⟩
  · rintro ⟨l, proper, ends, same⟩
    cases is : l.kind? with
    | none => exact .inl ⟨l, proper, ends, same, is⟩
    | some kind => exact .inr ⟨kind, l, proper, ends, same, is⟩

theorem Fits.ne_nil {piece rest : List Char} (fits : Fits piece rest) : piece ≠ [] := by
  obtain ⟨l, -, -, rfl⟩ := fits_iff.mp fits
  exact l.chars_ne_nil

/-- One piece at most fits at the head of a text. -/
theorem Fits.unique {piece rest piece' rest' : List Char} (fits : Fits piece rest)
    (fits' : Fits piece' rest') (same : piece ++ rest = piece' ++ rest') : piece = piece' := by
  obtain ⟨l, proper, ends, rfl⟩ := fits_iff.mp fits
  obtain ⟨l', proper', ends', rfl⟩ := fits_iff.mp fits'
  cases split : l.chars ++ rest with
  | nil => simp [l.chars_ne_nil] at split
  | cons c cs =>
    have found := lexeme_complete split.symm proper ends
    rw [lexeme_complete (split.symm.trans same) proper' ends'] at found
    rw [(Prod.mk.inj (Except.ok.inj found)).1]

/-- No piece fits exactly where no lexeme is found. -/
theorem misfit_iff {c : Char} {cs : List Char} :
    Misfit (c :: cs) ↔ ∃ fault, lexeme c cs = .error fault := by
  constructor
  · intro misfit
    cases found : lexeme c cs with
    | error fault => exact ⟨fault, rfl⟩
    | ok result =>
      obtain ⟨split, proper, ends⟩ := lexeme_sound found
      exact absurd (fits_iff.mpr ⟨_, proper, ends, rfl⟩) (misfit _ _ split)
  · rintro ⟨fault, failed⟩ piece rest split fits
    obtain ⟨l, proper, ends, rfl⟩ := fits_iff.mp fits
    rw [lexeme_complete split proper ends] at failed
    cases failed

/-- Only a quote can be unclosed, and no other fault is at a quote. -/
theorem lexeme_fault {c : Char} {cs : List Char} {fault : LexicalFault}
    (h : lexeme c cs = .error fault) :
    (c = '\'' ∨ c = '"') ∧ fault = .unclosed ∨ (c ≠ '\'' ∧ c ≠ '"') ∧ fault = .stray c := by
  unfold lexeme at h
  split at h
  next => cases h
  split at h
  next slash =>
    subst slash
    split at h <;> cases h
    exact .inr ⟨by decide, rfl⟩
  split at h
  next quote =>
    split at h <;> cases h
    exact .inl ⟨by simpa using quote, rfl⟩
  next other =>
    have apart : c ≠ '\'' ∧ c ≠ '"' := by simpa using other
    split at h
    next => cases h
    split at h <;> cases h
    exact .inr ⟨apart, rfl⟩

theorem faultAt_iff {c : Char} {cs : List Char} {p : Position} {e : SyntaxError} :
    FaultAt p (c :: cs) e ↔ ∃ fault, lexeme c cs = .error fault ∧ e = fault.toError p := by
  constructor
  · rintro (⟨known, misfit⟩ | ⟨other, misfit⟩)
    · obtain ⟨fault, failed⟩ := misfit_iff.mp misfit
      obtain ⟨-, rfl⟩ | ⟨⟨notSingle, notDouble⟩, -⟩ := lexeme_fault failed
      · exact ⟨_, failed, rfl⟩
      · exact absurd known (by simp [notSingle, notDouble])
    · obtain ⟨fault, failed⟩ := misfit_iff.mp misfit
      obtain ⟨known, -⟩ | ⟨-, rfl⟩ := lexeme_fault failed
      · exact absurd known (by simp [other])
      · exact ⟨_, failed, rfl⟩
  · rintro ⟨fault, failed, rfl⟩
    obtain ⟨known, rfl⟩ | ⟨other, rfl⟩ := lexeme_fault failed
    · exact .unclosed known (misfit_iff.mpr ⟨_, failed⟩)
    · exact .stray other (misfit_iff.mpr ⟨_, failed⟩)

/-! ### Scanning goes from place to place -/

/-- The tokens of a text behind some characters that have been scanned. -/
def tokensBehind (before rest : List Char) : Except SyntaxError (List Token) :=
  tokensFrom (placeBehind before) rest.length rest

theorem tokenize_eq_tokensBehind (source : String) :
    tokenize source = tokensBehind [] source.toList := rfl

theorem tokensFrom_steady {p : Position} {fuel more : Nat} {cs : List Char}
    (enough : cs.length ≤ fuel) (enough' : cs.length ≤ more) :
    tokensFrom p fuel cs = tokensFrom p more cs := by
  induction fuel generalizing p more cs with
  | zero =>
    obtain rfl := List.length_eq_zero_iff.mp (Nat.le_zero.mp enough)
    simp [tokensFrom_nil]
  | succ fuel ih =>
    cases cs with
    | nil => simp [tokensFrom_nil]
    | cons c cs =>
      obtain ⟨more, rfl⟩ := Nat.exists_eq_succ_of_ne_zero (n := more) (by
        rintro rfl
        simp at enough')
      unfold tokensFrom
      cases found : lexeme c cs with
      | error fault => rfl
      | ok result =>
        obtain ⟨l, rest⟩ := result
        have shorter := lexeme_shorter found
        simp only [List.length_cons] at enough enough'
        have later : tokensFrom (p.afterAll l.chars) fuel rest =
            tokensFrom (p.afterAll l.chars) more rest := ih (by omega) (by omega)
        simp only [later]

/-- The tokens of a text are that of its first lexeme, if it is one, and those behind it. -/
theorem tokensFrom_lexeme {p : Position} {fuel : Nat} {cs rest : List Char} {c : Char} {l : Lexeme}
    (found : lexeme c cs = .ok (l, rest)) :
    tokensFrom p (fuel + 1) (c :: cs) = (tokensFrom (p.afterAll l.chars) fuel rest).map
      ((l.kind?.map fun kind => ⟨kind, p⟩).toList ++ ·) := by
  conv_lhs => unfold tokensFrom
  simp only [found]
  generalize tokensFrom (p.afterAll l.chars) fuel rest = others
  cases others with
  | error e => rfl
  | ok tokens => cases l.kind? <;> rfl

theorem tokensBehind_lexeme {before cs rest : List Char} {c : Char} {l : Lexeme}
    (found : lexeme c cs = .ok (l, rest)) :
    tokensBehind before (c :: cs) = (tokensBehind (before ++ l.chars) rest).map
      ((l.kind?.map fun kind => ⟨kind, placeBehind before⟩).toList ++ ·) := by
  unfold tokensBehind
  rw [List.length_cons, tokensFrom_lexeme found, afterAll_placeBehind,
    tokensFrom_steady (lexeme_shorter found) (Nat.le_refl _)]

theorem tokensBehind_nil (before : List Char) : tokensBehind before [] = .ok [] := rfl

theorem tokensBehind_fault {before cs : List Char} {c : Char} {e : SyntaxError}
    (fault : FaultAt (placeBehind before) (c :: cs) e) :
    tokensBehind before (c :: cs) = .error e := by
  obtain ⟨fault, failed, rfl⟩ := faultAt_iff.mp fault
  unfold tokensBehind
  simp only [List.length_cons]
  unfold tokensFrom
  simp only [failed]

theorem tokensBehind_piece {before piece rest : List Char} {l : Lexeme} (proper : l.Proper)
    (ends : l.EndsBefore rest) (same : l.chars = piece) :
    tokensBehind before (piece ++ rest) = (tokensBehind (before ++ piece) rest).map
      ((l.kind?.map fun kind => ⟨kind, placeBehind before⟩).toList ++ ·) := by
  subst same
  cases split : l.chars ++ rest with
  | nil => simp [l.chars_ne_nil] at split
  | cons c cs => exact tokensBehind_lexeme (lexeme_complete split.symm proper ends)

/-- What has been scanned is what reading the whole text begins with. -/
theorem Scanned.tokensBehind {before rest : List Char} {ts : List Token}
    (scanned : Scanned before rest ts) :
    Script.tokensBehind [] (before ++ rest) = (Script.tokensBehind before rest).map (ts ++ ·) := by
  induction scanned with
  | @start text => cases h : Script.tokensBehind [] text <;> simp [h, Except.map]
  | @gap before piece rest ts _ gap ih =>
    obtain ⟨l, proper, ends, same, is⟩ := gap_iff.mp gap
    rw [List.append_assoc, ih, tokensBehind_piece proper ends same, is]
    cases Script.tokensBehind (before ++ piece) rest <;> rfl
  | @token before piece rest ts kind _ token ih =>
    obtain ⟨l, proper, ends, same, is⟩ := tokenPiece_iff.mp token
    rw [List.append_assoc, ih, tokensBehind_piece proper ends same, is]
    cases Script.tokensBehind (before ++ piece) rest <;> simp [Except.map]

/-- Scanning goes on until it is through, or no piece fits. -/
theorem Scanned.goes_on {before rest : List Char} {ts : List Token}
    (scanned : Scanned before rest ts) :
    ∃ before' rest' ts', before' ++ rest' = before ++ rest ∧ Scanned before' rest' ts' ∧
      (rest' = [] ∨ ∃ e, FaultAt (placeBehind before') rest' e) := by
  induction remaining : rest.length using Nat.strongRecOn generalizing before rest ts with
  | ind n ih =>
    subst remaining
    cases rest with
    | nil => exact ⟨before, [], ts, rfl, scanned, .inl rfl⟩
    | cons c cs =>
      cases found : lexeme c cs with
      | error fault =>
        exact ⟨before, c :: cs, ts, rfl, scanned, .inr ⟨_, faultAt_iff.mpr ⟨fault, found, rfl⟩⟩⟩
      | ok result =>
        obtain ⟨l, rest⟩ := result
        obtain ⟨split, proper, ends⟩ := lexeme_sound found
        have further : ∃ ts', Scanned (before ++ l.chars) rest ts' := by
          rw [split] at scanned
          cases is : l.kind? with
          | none => exact ⟨_, scanned.gap (gap_iff.mpr ⟨l, proper, ends, rfl, is⟩)⟩
          | some kind => exact ⟨_, scanned.token (tokenPiece_iff.mpr ⟨l, proper, ends, rfl, is⟩)⟩
        obtain ⟨_, further⟩ := further
        have shorter : rest.length < (c :: cs).length := by
          simpa using Nat.lt_succ_of_le (lexeme_shorter found)
        obtain ⟨before', rest', ts', same, reached⟩ := ih _ shorter further rfl
        exact ⟨before', rest', ts', by rw [same, split, List.append_assoc], reached⟩

/-- A text is scanned to its end, or up to a fault, and that is what reading it comes to. -/
theorem tokenize_cases (source : String) :
    (∃ ts, Scanned source.toList [] ts ∧ tokenize source = .ok ts) ∨
      ∃ before rest ts e, source.toList = before ++ rest ∧ Scanned before rest ts ∧
        FaultAt (placeBehind before) rest e ∧ tokenize source = .error e := by
  obtain ⟨before, rest, ts, same, scanned, stop⟩ :=
    (@Scanned.start source.toList).goes_on
  rw [List.nil_append] at same
  have whole := scanned.tokensBehind
  rw [same, ← tokenize_eq_tokensBehind] at whole
  rcases stop with rfl | ⟨e, fault⟩
  · rw [List.append_nil] at same
    subst same
    exact .inl ⟨ts, scanned, by simpa [tokensBehind_nil, Except.map] using whole⟩
  · refine .inr ⟨before, rest, ts, e, same.symm, scanned, fault, ?_⟩
    cases rest with
    | nil => cases fault
    | cons c cs => simpa [tokensBehind_fault fault, Except.map] using whole

theorem tokenize_eq_ok {source : String} {ts : List Token} :
    tokenize source = .ok ts ↔ Scanned source.toList [] ts := by
  constructor
  · intro h
    obtain ⟨ts', scanned, read⟩ | ⟨_, _, _, e, _, _, _, failed⟩ := tokenize_cases source
    · obtain rfl : ts = ts' := Except.ok.inj (h.symm.trans read)
      exact scanned
    · rw [failed] at h
      cases h
  · intro scanned
    have whole := scanned.tokensBehind
    rw [List.append_nil, tokensBehind_nil] at whole
    simpa [tokenize_eq_tokensBehind, Except.map] using whole

theorem Scanned.fails {source : String} {before rest : List Char} {ts : List Token}
    {e : SyntaxError} (scanned : Scanned before rest ts) (split : source.toList = before ++ rest)
    (fault : FaultAt (placeBehind before) rest e) : tokenize source = .error e := by
  have whole := scanned.tokensBehind
  rw [← split, ← tokenize_eq_tokensBehind] at whole
  cases rest with
  | nil => cases fault
  | cons c cs => simpa [tokensBehind_fault fault, Except.map] using whole

/-! ### The place of a fault -/

/-- Pieces fit as well if less stands behind them. -/
theorem Scanned.cut {before rest more : List Char} {ts : List Token}
    (scanned : Scanned before (rest ++ more) ts) : Scanned before rest ts := by
  generalize whole : rest ++ more = text at scanned
  induction scanned generalizing rest with
  | start => exact .start
  | @gap before piece _ ts _ gap ih =>
    subst whole
    refine .gap (ih (List.append_assoc ..)) ?_
    cases gap with
    | blank blank => exact .blank blank
    | comment line ends => exact .comment line fun c head => ends c (by simp_all)
  | @token before piece _ ts kind _ token ih =>
    subst whole
    refine .token (ih (List.append_assoc ..)) ⟨token.spelled, fun word c head => ?_⟩
    exact token.whole word c (by simp_all)

/-- Every place but the first one is reached by a piece from a place before it. -/
theorem Scanned.last_piece {before rest : List Char} {ts : List Token}
    (scanned : Scanned before rest ts) :
    before = [] ∨ ∃ init piece ts', before = init ++ piece ∧ Scanned init (piece ++ rest) ts' ∧
      Fits piece rest := by
  cases scanned with
  | start => exact .inl rfl
  | gap scanned gap => exact .inr ⟨_, _, _, rfl, scanned, .inl gap⟩
  | token scanned token => exact .inr ⟨_, _, _, rfl, scanned, .inr ⟨_, token⟩⟩

/-- Scanning comes by the end of each piece that fits at a place that it comes by. -/
theorem Scanned.comes_by {before piece rest before' rest' : List Char} {ts ts' : List Token}
    (scanned : Scanned before (piece ++ rest) ts) (fits : Fits piece rest)
    (scanned' : Scanned before' rest' ts') (same : before' ++ rest' = before ++ (piece ++ rest))
    (further : before <+: before') (other : before ≠ before') : before ++ piece <+: before' := by
  induction both : before.length + before'.length using Nat.strongRecOn
    generalizing before piece rest before' rest' ts ts' with
  | ind n ih =>
    subst both
    obtain rfl | ⟨init, last, tsInit, rfl, scannedInit, fitsLast⟩ := scanned'.last_piece
    · exact absurd (List.prefix_nil.mp further) other
    have some_ := List.length_pos_iff.mpr fitsLast.ne_nil
    have whole : init ++ (last ++ rest') = before ++ (piece ++ rest) := by
      rw [← List.append_assoc, same]
    by_cases here : before = init
    · subst here
      have alike := fits.unique fitsLast (List.append_cancel_left whole).symm
      exact alike ▸ List.prefix_rfl
    obtain early | late : before <+: init ∨ init <+: before :=
      List.prefix_or_prefix_of_prefix ⟨_, rfl⟩ ⟨_, whole⟩
    · have step := ih _ (by simp only [List.length_append]; omega) scanned fits scannedInit whole
        early here rfl
      exact step.trans (List.prefix_append ..)
    · -- the place lies inside the last piece, which the way to the place would have to come by
      have step := ih _ (by simp only [List.length_append]; omega) scannedInit fitsLast scanned
        whole.symm late (Ne.symm here) rfl
      exact absurd (List.IsPrefix.eq_of_length_le further step.length_le) other

/-- All places that scanning comes by lie before one at which no piece fits. -/
theorem Scanned.before_fault {before rest before' rest' : List Char} {ts ts' : List Token}
    (scanned : Scanned before rest ts) (misfit : Misfit rest)
    (scanned' : Scanned before' rest' ts') (same : before' ++ rest' = before ++ rest) :
    before' <+: before := by
  obtain early | late : before' <+: before ∨ before <+: before' :=
    List.prefix_or_prefix_of_prefix ⟨_, same⟩ ⟨_, rfl⟩
  · exact early
  induction size : before'.length using Nat.strongRecOn generalizing before' rest' ts' with
  | ind n ih =>
    subst size
    obtain rfl | ⟨init, last, tsInit, rfl, scannedInit, fitsLast⟩ := scanned'.last_piece
    · exact List.nil_prefix
    have some_ := List.length_pos_iff.mpr fitsLast.ne_nil
    have whole : init ++ (last ++ rest') = before ++ rest := by rw [← List.append_assoc, same]
    by_cases here : init = before
    · subst here
      exact absurd fitsLast (misfit _ _ (List.append_cancel_left whole).symm)
    have early : init <+: before := by
      obtain early | late : init <+: before ∨ before <+: init :=
        List.prefix_or_prefix_of_prefix ⟨_, whole⟩ ⟨_, rfl⟩
      · exact early
      · exact ih _ (by simp only [List.length_append]; omega) scannedInit whole late rfl
    exact scannedInit.comes_by fitsLast scanned whole.symm early here

/-- A text is read exactly if it is a concatenation of pieces, and the tokens are those among them,
each with the place of its first character. Any other text has a fault at the one place that
scanning comes by and at which no piece fits: the quote there is never closed, or the character
there is out of place. What stands before this place reads well. -/
theorem tokens_are_the_pieces :
    (∀ source ts, tokenize source = .ok ts ↔ Scanned source.toList [] ts) ∧
    ∀ source e, tokenize source = .error e ↔
      ∃ before rest ts, source.toList = before ++ rest ∧ Scanned before rest ts ∧
        FaultAt (placeBehind before) rest e ∧ tokenize (String.ofList before) = .ok ts ∧
        ∀ before' rest' ts', Scanned before' rest' ts' → before' ++ rest' = source.toList →
          before' <+: before := by
  refine ⟨fun source ts => tokenize_eq_ok, fun source e => ⟨fun failed => ?_, ?_⟩⟩
  · obtain ⟨ts, -, read⟩ | ⟨before, rest, ts, e', split, scanned, fault, failed'⟩ :=
      tokenize_cases source
    · rw [read] at failed
      cases failed
    obtain rfl : e = e' := Except.error.inj (failed.symm.trans failed')
    refine ⟨before, rest, ts, split, scanned, fault, tokenize_eq_ok.mpr ?_, ?_⟩
    · rw [String.toList_ofList]
      exact @Scanned.cut before [] rest ts scanned
    · intro before' rest' ts' scanned' same
      have misfit : Misfit rest := by cases fault <;> assumption
      exact scanned.before_fault misfit scanned' (same.trans split)
  · rintro ⟨before, rest, ts, split, scanned, fault, -⟩
    exact scanned.fails split fault

/-- Behind a name and a comment with quotes stands a quote that is never closed. -/
theorem open_quote_is_placed :
    ∃ before rest ts, "a // 'b'\n\t\"c'".toList = before ++ rest ∧ Scanned before rest ts ∧
      FaultAt (placeBehind before) rest (.unterminatedString ⟨2, 2⟩) ∧
      tokenize (String.ofList before) = .ok ts ∧
      ∀ before' rest' ts', Scanned before' rest' ts' →
        before' ++ rest' = "a // 'b'\n\t\"c'".toList → before' <+: before :=
  (tokens_are_the_pieces.2 _ _).mp (by decide +kernel)

end PipelineRunner.Script
