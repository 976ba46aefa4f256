/-!
The two classes of characters that the runner tells apart: blank characters, which separate
tokens and do not count in a name, and control characters, which are taken out of output.
-/

namespace PipelineRunner.Text

/-- The characters with Unicode's White_Space property. -/
def isBlank (c : Char) : Bool :=
  let n := c.toNat
  (9 ≤ n && n ≤ 13) || n == 32 || n == 0x85 || n == 0xA0 || n == 0x1680 ||
    (0x2000 ≤ n && n ≤ 0x200A) || n == 0x2028 || n == 0x2029 || n == 0x202F ||
    n == 0x205F || n == 0x3000

def isControl (c : Char) : Bool :=
  let n := c.toNat
  n < 32 || (127 ≤ n && n < 160)

/-- Every blank of ASCII is a blank here. -/
theorem isBlank_of_isWhitespace {c : Char} (h : c.isWhitespace = true) : isBlank c = true := by
  simp only [Char.isWhitespace, Bool.or_eq_true, decide_eq_true_eq] at h
  rcases h with ((h | h) | h) | h <;> subst h <;> decide

def trimChars (cs : List Char) : List Char :=
  ((cs.dropWhile isBlank).reverse.dropWhile isBlank).reverse

def trim (s : String) : String :=
  String.ofList (trimChars s.toList)

def isBlankText (s : String) : Bool :=
  s.toList.all isBlank

def stripControl (s : String) : String :=
  String.ofList (s.toList.filter fun c => !isControl c)

/-- A line end is a control character, so stripped text is a single line. -/
theorem newline_notMem_stripControl (s : String) : '\n' ∉ (stripControl s).toList := by
  simp [stripControl, isControl]

/-! ### Numbers and lines

Whole numbers in decimal notation, which are read with a bound and written with a fixed width, and
the lines of a text. A line ends at a line feed, which is dropped together with one carriage return
before it; what follows the last line feed is a line only if it is not empty. -/

def digit? (c : Char) : Option Nat :=
  if '0' ≤ c && c ≤ '9' then some (c.toNat - '0'.toNat) else none

/-- The value of a sequence of digits after the value `n`. -/
def digitsFrom (n : Nat) : List Char → Option Nat
  | [] => some n
  | c :: cs =>
    match digit? c with
    | some d => digitsFrom (n * 10 + d) cs
    | none => none

def digits? : List Char → Option Nat
  | [] => none
  | cs => digitsFrom 0 cs

/-- A number below `bound` in decimal digits, after at most one plus sign. -/
def natBelow? (bound : Nat) (s : String) : Option Nat :=
  let digits := match s.toList with
    | '+' :: cs => digits? cs
    | cs => digits? cs
  digits.filter (· < bound)

/-- The digits of `n`, with zeros in front up to the given width. -/
def padded (width n : Nat) : String :=
  let digits := toString n
  String.ofList (List.replicate (width - digits.length) '0') ++ digits


/-- The pieces between the occurrences of `sep`: always at least one. -/
def splitAt {α : Type} [BEq α] (sep : α) : List α → List (List α)
  | [] => [[]]
  | c :: cs =>
    match splitAt sep cs with
    | [] => [[c]]
    | piece :: pieces => if c == sep then [] :: piece :: pieces else (c :: piece) :: pieces

def dropOneLast {α : Type} [BEq α] (c : α) (cs : List α) : List α :=
  if cs.getLast? == some c then cs.dropLast else cs

/-- The lines of a sequence in which `feed` ends a line and `ret` may stand before it. -/
def linesOf {α : Type} [BEq α] (feed ret : α) (cs : List α) : List (List α) :=
  let pieces := splitAt feed cs
  let ended := pieces.dropLast.map (dropOneLast ret)
  match pieces.getLast? with
  | some [] | none => ended
  | some rest => ended ++ [rest]

section

variable {α : Type} [BEq α]

theorem splitAt_ne_nil (sep : α) (xs : List α) : splitAt sep xs ≠ [] := by
  cases xs with
  | nil => simp [splitAt]
  | cons x xs =>
    simp only [splitAt]
    split
    · simp
    · split <;> simp

theorem exists_splitAt_eq (sep : α) (xs : List α) :
    ∃ pieces last, splitAt sep xs = pieces ++ [last] := by
  rcases List.eq_nil_or_concat (splitAt sep xs) with nothing | ⟨pieces, last, some⟩
  · exact absurd nothing (splitAt_ne_nil sep xs)
  · exact ⟨pieces, last, by rw [some, List.concat_eq_append]⟩

variable [LawfulBEq α] {feed ret : α} {xs ys : List α}

/-- A separator between two sequences separates their pieces. -/
theorem splitAt_append (sep : α) (xs ys : List α) :
    splitAt sep (xs ++ sep :: ys) = splitAt sep xs ++ splitAt sep ys := by
  induction xs with
  | nil =>
    simp only [List.nil_append, splitAt]
    split
    next nothing => exact absurd nothing (splitAt_ne_nil sep ys)
    next pieces => simp [pieces]
  | cons x xs ih =>
    simp only [List.cons_append, splitAt, ih]
    cases pieces : splitAt sep xs with
    | nil => exact absurd pieces (splitAt_ne_nil sep xs)
    | cons piece pieces =>
      simp only [List.cons_append]
      split <;> rfl

/-- Without a separator there is one piece. -/
theorem splitAt_of_notMem {sep : α} (none : sep ∉ xs) : splitAt sep xs = [xs] := by
  induction xs with
  | nil => rfl
  | cons x xs ih =>
    rw [List.mem_cons, not_or] at none
    have other : (x == sep) = false := by simpa using Ne.symm none.1
    simp [splitAt, ih none.2, other]

/-- Lines that have ended do not depend on what follows. -/
theorem linesOf_append (feed ret : α) (xs ys : List α) :
    linesOf feed ret (xs ++ feed :: ys) =
      (splitAt feed xs).map (dropOneLast ret) ++ linesOf feed ret ys := by
  obtain ⟨pieces, last, some⟩ := exists_splitAt_eq feed ys
  simp only [linesOf, splitAt_append, some, ← List.append_assoc, List.dropLast_concat,
    List.getLast?_concat, List.map_append]
  split <;> simp

theorem linesOf_ended (feed ret : α) (xs : List α) :
    linesOf feed ret (xs ++ [feed]) = (splitAt feed xs).map (dropOneLast ret) := by
  have whole := linesOf_append feed ret xs []
  rwa [show linesOf feed ret ([] : List α) = [] from rfl, List.append_nil] at whole

/-- What follows the last line end is a line unless it is empty. -/
theorem linesOf_rest (none : feed ∉ xs) (some : xs ≠ []) : linesOf feed ret xs = [xs] := by
  simp only [linesOf, splitAt_of_notMem none]
  cases xs with
  | nil => exact absurd rfl some
  | cons x xs => rfl

end

def lines (s : String) : List String :=
  (linesOf '\n' '\r' s.toList).map String.ofList

/-- Puts `sep` between the texts. -/
def join (sep : String) : List String → String
  | [] => ""
  | [s] => s
  | s :: t :: rest => s ++ sep ++ join sep (t :: rest)

/-- Texts that a separator is put between are told apart by it, if it stands in none of them. -/
theorem splitAt_join {sep : Char} {texts : List String} (some : texts ≠ [])
    (plain : ∀ s ∈ texts, sep ∉ s.toList) :
    splitAt sep (join (String.singleton sep) texts).toList = texts.map String.toList := by
  induction texts with
  | nil => exact absurd rfl some
  | cons s texts ih =>
    obtain ⟨first, rest⟩ := List.forall_mem_cons.mp plain
    cases texts with
    | nil => exact splitAt_of_notMem first
    | cons t texts =>
      have spelled : (join (String.singleton sep) (s :: t :: texts)).toList =
          s.toList ++ sep :: (join (String.singleton sep) (t :: texts)).toList := by
        simp [join]
      rw [spelled, splitAt_append, splitAt_of_notMem first, ih (by simp) rest]
      rfl

end PipelineRunner.Text
