import PipelineRunner.Json.Reader
import PipelineRunner.Json.Basic

/-! Compact texts of JSON values are read back. Every character of a string is written so that it is
read as itself, a string ends at the first mark that nothing escapes, and arrays and objects end
where their items do; the length of a text bounds the fuel that reading it takes. Numbers are left
out: their digits may be written in ways that no text has. -/

namespace PipelineRunner.Json

/-! ### Strings -/

theorem hexValue?_hexDigit {n : Nat} (small : n < 16) : hexValue? (hexDigit n) = some n := by
  have all : ∀ n < 16, hexValue? (hexDigit n) = some n := by decide
  exact all n small

/-- An escape with four digits is read as the character that it stands for. -/
theorem readUnicode_control {c : Char} (small : c.toNat < 32) (rest : List Char) :
    readUnicode ('0' :: '0' :: hexDigit (c.toNat / 16) :: hexDigit (c.toNat % 16) :: rest) =
      some (.char c rest) := by
  have zero : hexValue? '0' = some 0 := by decide
  have value : ((0 * 16 + 0) * 16 + c.toNat / 16) * 16 + c.toNat % 16 = c.toNat := by omega
  have digits : readHex ('0' :: '0' :: hexDigit (c.toNat / 16) :: hexDigit (c.toNat % 16) :: rest) =
      some (c.toNat, rest) := by
    simp only [readHex, zero, hexValue?_hexDigit (show c.toNat / 16 < 16 by omega),
      hexValue?_hexDigit (show c.toNat % 16 < 16 by omega), Option.bind_eq_bind, Option.bind_some,
      value]
  have below : c.toNat < 0xD800 := by omega
  simp [readUnicode, digits, below, Char.ofNat_toNat]

theorem readStringItem_escaped (c : Char) (rest : List Char) :
    readStringItem (escaped c ++ rest) = some (.char c rest) := by
  by_cases letter : c ∈ ['"', '\\', '\x08', '\x0c', '\n', '\r', '\t']
  · simp only [List.mem_cons, List.not_mem_nil, or_false] at letter
    rcases letter with rfl | rfl | rfl | rfl | rfl | rfl | rfl <;> rfl
  · simp only [List.mem_cons, List.not_mem_nil, or_false, not_or] at letter
    obtain ⟨mark, backslash, b, f, n, r, t⟩ := letter
    by_cases small : c.toNat < 32
    · simp only [escaped, mark, backslash, b, f, n, r, t, small, if_false, if_true,
        List.cons_append, List.nil_append, readStringItem, readUnicode_control small]
    · simp only [escaped, mark, backslash, b, f, n, r, t, small, if_false, List.cons_append,
        List.nil_append]
      unfold readStringItem
      split <;> simp_all

theorem length_escaped (c : Char) : 1 ≤ (escaped c).length := by
  unfold escaped
  repeat' split
  all_goals simp

/-- A string is read up to the mark behind it. -/
theorem readStringBody_escaped {fuel : Nat} {cs : List Char} (rest : List Char)
    (enough : (cs.flatMap escaped).length < fuel) :
    readStringBody fuel (cs.flatMap escaped ++ '"' :: rest) = some (some cs, rest) := by
  induction cs generalizing fuel with
  | nil =>
    cases fuel with
    | zero => cases enough
    | succ fuel => rfl
  | cons c cs ih =>
    cases fuel with
    | zero => cases enough
    | succ fuel =>
      have visible := length_escaped c
      simp only [List.flatMap_cons, List.length_append] at enough
      simp only [List.flatMap_cons, List.append_assoc, readStringBody, readStringItem_escaped]
      rw [ih (by omega)]
      rfl

/-! ### Values -/

mutual

/-- Whether a value holds neither numbers nor what is no text. -/
def isPlain : Json → Bool
  | .number _ | .unpaired => false
  | .array items => itemsPlain items
  | .object fields => fieldsPlain fields
  | _ => true

def itemsPlain : List Json → Bool
  | [] => true
  | item :: rest => item.isPlain && itemsPlain rest

def fieldsPlain : List (String × Json) → Bool
  | [] => true
  | (_, value) :: rest => value.isPlain && fieldsPlain rest

end

mutual

/-- How deep arrays and objects are nested. -/
def depth : Json → Nat
  | .array items => itemsDepth items + 1
  | .object fields => fieldsDepth fields + 1
  | _ => 0

def itemsDepth : List Json → Nat
  | [] => 0
  | item :: rest => max item.depth (itemsDepth rest)

def fieldsDepth : List (String × Json) → Nat
  | [] => 0
  | (_, value) :: rest => max value.depth (fieldsDepth rest)

end

/-- Nothing is skipped before a text that begins with no blank. -/
theorem skipSpace_cons {c : Char} (mark : isSpace c = false) (cs : List Char) :
    skipSpace (c :: cs) = c :: cs := by
  simp [skipSpace, mark]

/-- Nothing is skipped before a mark that separates or closes. -/
theorem skipSpace_mark {c : Char} (mark : c ∈ [',', ':', ']', '\x7d', '"']) (cs : List Char) :
    skipSpace (c :: cs) = c :: cs := by
  simp only [List.mem_cons, List.not_mem_nil, or_false] at mark
  rcases mark with rfl | rfl | rfl | rfl | rfl <;> exact skipSpace_cons (by decide) cs

/-- The text of a plain value begins with no blank and with nothing that ends an array. -/
theorem chars_begins {v : Json} (plain : v.isPlain = true) :
    ∃ c cs, v.chars = c :: cs ∧ isSpace c = false ∧ c ≠ ']' := by
  cases v with
  | bool b => cases b <;> exact ⟨_, _, rfl, by decide, by decide⟩
  | number n => cases plain
  | _ => exact ⟨_, _, rfl, by decide, by decide⟩

theorem itemChars_begins {item : Json} {items : List Json}
    (plain : itemsPlain (item :: items) = true) :
    ∃ c cs, itemChars (item :: items) = c :: cs ∧ isSpace c = false ∧ c ≠ ']' := by
  obtain ⟨c, cs, begins, mark, other⟩ := chars_begins (Bool.and_eq_true_iff.mp plain).1
  cases items <;> exact ⟨c, _, by simp only [itemChars, begins, List.cons_append]; rfl, mark, other⟩

theorem fieldChars_begins (field : String × Json) (fields : List (String × Json)) :
    ∃ cs, fieldChars (field :: fields) = '"' :: cs := by
  cases fields <;> exact ⟨_, by simp only [fieldChars, quoted, List.cons_append]; rfl⟩

mutual

/-- The text of a value is read back, whatever stands behind it. -/
theorem readValue_chars : ∀ (fuel : Nat) (v : Json) (rest : List Char), v.isPlain = true →
    v.chars.length ≤ fuel → readValue fuel (v.chars ++ rest) = some (v, rest)
  | 0, v, rest, plain, enough => by
    obtain ⟨c, cs, begins, -, -⟩ := chars_begins plain
    simp [begins] at enough
  | fuel + 1, v, rest, plain, enough => by
    cases v with
    | null => simp [chars, readValue, expectChars]
    | bool b => cases b <;> simp [chars, readValue, expectChars]
    | number n => cases plain
    | unpaired => cases plain
    | string s =>
      simp only [chars, quoted, List.length_cons, List.length_append] at enough
      simp only [chars, quoted, List.cons_append, List.append_assoc, readValue, List.nil_append]
      rw [readStringBody_escaped _ (by omega)]
      simp
    | array items =>
      cases items with
      | nil => simp [chars, itemChars, readValue, skipSpace_mark]
      | cons item items =>
        have items_plain : itemsPlain (item :: items) = true := plain
        obtain ⟨c, cs, begins, mark, other⟩ := itemChars_begins items_plain
        have read := readItems_itemChars fuel item items rest items_plain
          (by simpa [chars] using enough)
        rw [begins, List.cons_append] at read
        simp only [chars, begins, List.cons_append, readValue, skipSpace_cons mark]
        split
        · simp_all
        · simp [read]
    | object fields =>
      cases fields with
      | nil => simp [chars, fieldChars, readValue, skipSpace_mark]
      | cons field fields =>
        obtain ⟨cs, begins⟩ := fieldChars_begins field fields
        have read := readFields_fieldChars fuel field fields rest plain
          (by simpa [chars] using enough)
        rw [begins, List.cons_append] at read
        simp only [chars, begins, List.cons_append, readValue, skipSpace_mark (c := '"') (by decide)]
        simp [read]

/-- The items of an array are read back up to its closing bracket. -/
theorem readItems_itemChars : ∀ (fuel : Nat) (item : Json) (items : List Json)
    (rest : List Char), itemsPlain (item :: items) = true →
    (itemChars (item :: items)).length ≤ fuel →
    readItems fuel (itemChars (item :: items) ++ rest) = some (item :: items, rest)
  | 0, item, items, rest, plain, enough => by
    obtain ⟨c, cs, begins, -, -⟩ := itemChars_begins plain
    simp [begins] at enough
  | fuel + 1, item, items, rest, plain, enough => by
    obtain ⟨item_plain, items_plain⟩ := Bool.and_eq_true_iff.mp plain
    cases items with
    | nil =>
      simp only [itemChars, List.length_append, List.length_cons] at enough
      have read := readValue_chars fuel item (']' :: rest) item_plain (by omega)
      simp [itemChars, readItems, read, skipSpace_mark]
    | cons next items =>
      simp only [itemChars, List.length_append, List.length_cons] at enough
      obtain ⟨c, cs, begins, mark, -⟩ := itemChars_begins items_plain
      have read := readValue_chars fuel item (',' :: (itemChars (next :: items) ++ rest))
        item_plain (by omega)
      have read_rest := readItems_itemChars fuel next items rest items_plain (by omega)
      simp only [begins, List.cons_append] at read read_rest
      simp [itemChars, readItems, begins, read, read_rest, skipSpace_mark, skipSpace_cons mark]

/-- The fields of an object are read back up to its closing brace. -/
theorem readFields_fieldChars : ∀ (fuel : Nat) (field : String × Json)
    (fields : List (String × Json)) (rest : List Char), fieldsPlain (field :: fields) = true →
    (fieldChars (field :: fields)).length ≤ fuel →
    readFields fuel (fieldChars (field :: fields) ++ rest) = some (some (field :: fields), rest)
  | 0, field, fields, rest, plain, enough => by
    obtain ⟨cs, begins⟩ := fieldChars_begins field fields
    simp [begins] at enough
  | fuel + 1, (name, value), fields, rest, plain, enough => by
    obtain ⟨value_plain, fields_plain⟩ := Bool.and_eq_true_iff.mp plain
    obtain ⟨c, cs, begins, mark, -⟩ := chars_begins value_plain
    cases fields with
    | nil =>
      simp only [fieldChars, quoted, List.length_append, List.length_cons] at enough
      have read_name := @readStringBody_escaped fuel name.toList
        (':' :: (value.chars ++ '\x7d' :: rest)) (by omega)
      have read := readValue_chars fuel value ('\x7d' :: rest) value_plain (by omega)
      simp only [begins, List.cons_append] at read read_name
      simp [fieldChars, quoted, readFields, begins, read_name, read, skipSpace_mark, skipSpace_cons mark]
    | cons next fields =>
      simp only [fieldChars, quoted, List.length_append, List.length_cons] at enough
      obtain ⟨ds, begins_rest⟩ := fieldChars_begins next fields
      have read_name := @readStringBody_escaped fuel name.toList
        (':' :: (value.chars ++ ',' :: (fieldChars (next :: fields) ++ rest))) (by omega)
      have read := readValue_chars fuel value (',' :: (fieldChars (next :: fields) ++ rest))
        value_plain (by omega)
      have read_rest := readFields_fieldChars fuel next fields rest fields_plain (by omega)
      simp only [begins, begins_rest, List.cons_append] at read read_name read_rest
      simp [fieldChars, quoted, readFields, begins, begins_rest, read_name, read, read_rest,
        skipSpace_mark, skipSpace_cons mark]

end

/-- The compact text of a value stands for that value. -/
theorem parse?_compact {v : Json} (plain : v.isPlain = true) : parse? v.compact = some v := by
  obtain ⟨c, cs, begins, mark, -⟩ := chars_begins plain
  have read := readValue_chars (2 * v.chars.length + 2) v [] plain (by omega)
  rw [List.append_nil] at read
  have unskipped : skipSpace v.chars = v.chars := by rw [begins, skipSpace_cons mark]
  have nothing_behind : skipSpace [] = [] := rfl
  simp [parse?, compact, unskipped, read, nothing_behind]

/-! ### Nesting -/

mutual

/-- A plain value fits wherever there is room for its nesting. -/
theorem fits_iff_depth : ∀ (room : Nat) (v : Json), v.isPlain = true →
    (v.fits room = true ↔ v.depth ≤ room)
  | room, .null, _ | room, .bool _, _ | room, .string _, _ => by simp [fits, depth]
  | room, .array items, plain => by
    have inner := itemsFit_iff_depth (room - 1) items plain
    simp only [fits, depth, Bool.and_eq_true, decide_eq_true_eq, inner]
    omega
  | room, .object fields, plain => by
    have inner := fieldsFit_iff_depth (room - 1) fields plain
    simp only [fits, depth, Bool.and_eq_true, decide_eq_true_eq, inner]
    omega

theorem itemsFit_iff_depth : ∀ (room : Nat) (items : List Json), itemsPlain items = true →
    (itemsFit room items = true ↔ itemsDepth items ≤ room)
  | room, [], _ => by simp [itemsFit, itemsDepth]
  | room, item :: items, plain => by
    obtain ⟨item_plain, items_plain⟩ := Bool.and_eq_true_iff.mp plain
    simp only [itemsFit, itemsDepth, Bool.and_eq_true, fits_iff_depth room item item_plain,
      itemsFit_iff_depth room items items_plain, Nat.max_le]

theorem fieldsFit_iff_depth : ∀ (room : Nat) (fields : List (String × Json)),
    fieldsPlain fields = true → (fieldsFit room fields = true ↔ fieldsDepth fields ≤ room)
  | room, [], _ => by simp [fieldsFit, fieldsDepth]
  | room, (_, value) :: fields, plain => by
    obtain ⟨value_plain, fields_plain⟩ := Bool.and_eq_true_iff.mp plain
    simp only [fieldsFit, fieldsDepth, Bool.and_eq_true, fits_iff_depth room value value_plain,
      fieldsFit_iff_depth room fields fields_plain, Nat.max_le]

end

end PipelineRunner.Json
