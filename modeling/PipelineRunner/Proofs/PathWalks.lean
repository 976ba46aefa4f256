import Mathlib.Data.List.Basic
import PipelineRunner.Host.FileTree

/-! Where a path leads that has been put together from a directory and a name. The bytes of a text
are those of its characters, and no character beyond ASCII has a byte of ASCII: a name without a
slash has none in its bytes, and its bytes are a dot or two only where it is. So the path of a name
in a directory is walked to that directory and then by that name, which leads no further. -/

namespace PipelineRunner

/-! ### The bytes of a text -/

namespace Text.Bytes

variable {s t : String} {b c : Char}

/-- The bytes of a character. -/
def ofChar (c : Char) : List Char := (String.utf8EncodeChar c).map fun b => Char.ofNat b.toNat

theorem ofChar_ne_nil (c : Char) : ofChar c ≠ [] := by
  simp [ofChar, String.utf8EncodeChar_ne_nil]

theorem ofChar_of_ascii (ascii : c.toNat < 128) : ofChar c = [c] := by
  have value : c.val.toNat ≤ 0x7f := Nat.le_of_lt_succ ascii
  simp only [ofChar, String.utf8EncodeChar, if_pos value, List.map_cons, List.map_nil,
    UInt8.toNat_ofNat']
  rw [Nat.mod_eq_of_lt (by omega)]
  exact congrArg (fun c => [c]) (Char.ofNat_toNat c)

/-- The bytes of a character beyond ASCII are beyond it too. -/
theorem le_of_mem_ofChar (other : ¬ c.toNat < 128) (mem : b ∈ ofChar c) : 128 ≤ b.toNat := by
  obtain ⟨byte, byte_mem, rfl⟩ := List.mem_map.mp mem
  have same : (Char.ofNat byte.toNat).toNat = byte.toNat := by
    have lt := byte.toNat_lt
    rw [Char.ofNat, dif_pos (.inl (by omega))]
    rfl
  have value : ¬ c.val.toNat ≤ 0x7f := fun le => other (Nat.lt_succ_of_le le)
  rw [same]
  simp only [String.utf8EncodeChar, if_neg value] at byte_mem
  split at byte_mem
  case' isFalse => split at byte_mem
  all_goals
    simp only [List.mem_cons, List.not_mem_nil, or_false] at byte_mem
    obtain rfl | rfl | rfl | rfl := byte_mem <;> rw [UInt8.toNat_ofNat'] <;> omega

theorem toList_loop_eq (bs : ByteArray) (i : Nat) (r : List UInt8) :
    ByteArray.toList.loop bs i r = r.reverse ++ bs.data.toList.drop i := by
  fun_induction ByteArray.toList.loop bs i r with
  | case1 i r inside ih =>
    have lt : i < bs.data.toList.length := inside
    rw [ih, List.drop_eq_getElem_cons lt]
    simp [ByteArray.get!, inside]
  | case2 i r outside =>
    rw [List.drop_eq_nil_of_le (Nat.le_of_not_lt outside)]
    simp

theorem encode_eq (s : String) : Utf8.encode s = s.toList.flatMap String.utf8EncodeChar := by
  have bytes : s.toUTF8 = (s.toList.flatMap String.utf8EncodeChar).toByteArray := by
    rw [String.toUTF8_eq_toByteArray, ← String.utf8Encode_toList, List.utf8Encode]
  rw [Utf8.encode, bytes, ByteArray.toList, toList_loop_eq]
  exact List.toList_data_toByteArray

theorem toList_ofText (s : String) : (ofText s).toList = s.toList.flatMap ofChar := by
  unfold ofText
  split
  next ascii =>
    have plain : ∀ c ∈ s.toList, ofChar c = [c] := fun c mem =>
      ofChar_of_ascii (of_decide_eq_true (List.all_eq_true.mp ascii c mem))
    rw [List.flatMap_congr plain, List.flatMap_singleton']
  next =>
    rw [ofBytes, String.toList_ofList, encode_eq, List.map_flatMap]
    rfl

theorem ofText_append (s t : String) : ofText (s ++ t) = ofText s ++ ofText t := by
  simp [← String.toList_inj, toList_ofText]

/-- A character of ASCII stands in the bytes of a text where it stands in the text. -/
theorem mem_ofText (ascii : c.toNat < 128) : c ∈ (ofText s).toList ↔ c ∈ s.toList := by
  rw [toList_ofText, List.mem_flatMap]
  constructor
  · rintro ⟨a, a_mem, mem⟩
    by_cases plain : a.toNat < 128
    · rw [ofChar_of_ascii plain, List.mem_singleton] at mem
      exact mem ▸ a_mem
    · exact absurd ascii (Nat.not_lt_of_le (le_of_mem_ofChar plain mem))
  · exact fun mem => ⟨c, mem, by simp [ofChar_of_ascii ascii]⟩

theorem eq_of_ofText_eq (ascii : ∀ c ∈ t.toList, c.toNat < 128) (same : ofText s = t) : s = t := by
  have plain : ∀ c ∈ s.toList, c.toNat < 128 := by
    intro c mem
    by_contra other
    obtain ⟨b, b_mem⟩ := List.exists_mem_of_ne_nil _ (ofChar_ne_nil c)
    have told : b ∈ t.toList := by
      rw [← same, toList_ofText]
      exact List.mem_flatMap.mpr ⟨c, mem, b_mem⟩
    exact Nat.not_lt_of_le (le_of_mem_ofChar other b_mem) (ascii b told)
  rwa [ofText, if_pos (List.all_eq_true.mpr fun c mem => decide_eq_true (plain c mem))] at same

end Text.Bytes

/-! ### Paths as texts -/

namespace Host

namespace Path

variable {path directory above name : String}

theorem isAbsolute_iff : isAbsolute path = true ↔ ['/'] <+: path.toList := by
  simp [isAbsolute]

theorem names_of_notMem (plain : '/' ∉ path.toList) : names path = [path] := by
  rw [names, Text.splitAt_of_notMem plain, List.map_singleton, String.ofList_toList]

theorem names_append (directory path : String) :
    names (directory ++ "/" ++ path) = names directory ++ names path := by
  have spelled : (directory ++ "/" ++ path).toList = directory.toList ++ '/' :: path.toList := by
    simp
  simp only [names, spelled, Text.splitAt_append, List.map_append]

theorem isAbsolute_append (some : directory ≠ "") (path : String) :
    isAbsolute (directory ++ path) = isAbsolute directory := by
  obtain ⟨c, cs, spelled⟩ := List.exists_cons_of_ne_nil (mt String.toList_eq_nil_iff.mp some)
  rw [Bool.eq_iff_iff, isAbsolute_iff, isAbsolute_iff, String.toList_append, spelled]
  simp

theorem isAbsolute_of_notMem (plain : '/' ∉ path.toList) : isAbsolute path = false := by
  rw [Bool.eq_false_iff, ne_eq, isAbsolute_iff]
  exact fun slash => plain (slash.subset (List.mem_singleton_self _))

theorem join_empty (plain : '/' ∉ name.toList) : join "" name = name := by
  simp [join, isAbsolute_of_notMem plain]

/-- A slash is put in front of a name that lies in a directory, unless one stands there. -/
theorem join_of_notMem (plain : '/' ∉ name.toList) (some : directory ≠ "") :
    ∃ above, (directory = above ∨ directory = above ++ "/" ++ "") ∧
      join directory name = above ++ "/" ++ name := by
  rw [join, isAbsolute_of_notMem plain, if_neg Bool.false_ne_true]
  by_cases ends : directory.endsWith "/" = true
  · have last := ends
    rw [String.endsWith_eq_endsWith_toSlice, String.Slice.endsWith_string_iff,
      String.copy_toSlice] at last
    obtain ⟨above, spelled⟩ := last
    have whole : directory = String.ofList above ++ "/" := by
      rw [← String.toList_inj, ← spelled]
      simp
    exact ⟨String.ofList above, .inr (by simpa using whole), by rw [if_pos (by simp [ends]), whole]⟩
  · exact ⟨directory, .inl rfl, by rw [if_neg (by simp [some, ends])]⟩

/-- A slash behind a path adds an empty name. -/
theorem names_of_slash (whole : directory = above ∨ directory = above ++ "/" ++ "") :
    ∃ blanks : List String, blanks.all (·.isEmpty) = true ∧
      names directory = names above ++ blanks := by
  rcases whole with rfl | rfl
  · exact ⟨[], rfl, (List.append_nil _).symm⟩
  · exact ⟨[""], rfl, names_append _ _⟩

theorem isAbsolute_of_slash (whole : directory = above ∨ directory = above ++ "/" ++ "")
    (some : directory ≠ "") (path : String) :
    isAbsolute (above ++ "/" ++ path) = isAbsolute directory := by
  rcases whole with rfl | rfl
  · rw [String.append_assoc, isAbsolute_append some]
  · have some : above ++ "/" ≠ "" := by simp
    rw [isAbsolute_append some, isAbsolute_append some]

end Path

/-! ### Walks -/

namespace FileTree

variable {t : FileTree} {follow : Bool} {again : Nat → List String → Except FileError Spot}
  {here cwd cwd' d links : Nat} {name : String} {names blanks : List String} {s : Spot}

/-- Where a path leads whose last name is looked for in a directory. -/
def spotIn (t : FileTree) (d : Nat) (name : String) : Except FileError Spot :=
  if longestName < name.length then .error .nameTooLong else .ok ⟨d, name, t.entry? d name⟩

/-- A name that stands for itself, and for nothing that the last part of a path goes on from. -/
structure Plain (t : FileTree) (follow : Bool) (d : Nat) (name : String) : Prop where
  some : name ≠ ""
  notHere : name ≠ "."
  notAbove : name ≠ ".."
  rests : follow = true → ∀ i target, t.entry? d name = .some i → t.content i ≠ .link target

theorem Plain.walkNames_eq (plain : t.Plain follow d name) (there : t.isDirectory d = true) :
    t.walkNames follow again d [name] = t.spotIn d name := by
  obtain ⟨some, notHere, notAbove, rests⟩ := plain
  simp only [walkNames, there, some, notHere, notAbove, spotIn]
  cases entry : t.entry? d name with
  | none => simp
  | some i =>
    cases content : t.content i with
    | link target =>
      cases follow with
      | false => simp [content]
      | true => exact absurd content (rests rfl i target entry)
    | _ => simp [content]

theorem walkNames_blanks (there : t.isDirectory d = true) (blank : names.all (·.isEmpty) = true)
    (some : name ≠ "") :
    t.walkNames follow again d (names ++ [name]) = t.walkNames follow again d [name] := by
  induction names with
  | nil => rfl
  | cons first names ih =>
    rw [List.all_cons, Bool.and_eq_true, String.isEmpty_iff] at blank
    obtain ⟨rfl, blank⟩ := blank
    rw [← ih blank, List.cons_append]
    conv_lhs => rw [walkNames]
    simp [there, some]

/-- The first name on a way that ends in a directory leads to a node or to a link, whatever comes
behind it. -/
theorem walkNames_cons (found : t.walkNames true again here (name :: names) = .ok s)
    (node : s.node? = some d) (there : t.isDirectory d = true) :
    (∃ i, (if names.all (·.isEmpty) then i = d else t.walkNames true again i names = .ok s) ∧
      ∀ follow again more, more.all (·.isEmpty) = false →
        t.walkNames follow again here (name :: more) = t.walkNames follow again i more) ∨
    ∃ i target, again i (Path.names target ++ names) = .ok s ∧
      ∀ follow again more, more.all (·.isEmpty) = false →
        t.walkNames follow again here (name :: more) = again i (Path.names target ++ more) := by
  have goes {i : Nat} {name : String} (found : (if names.all (·.isEmpty) then
      .ok ⟨here, name, some i⟩ else t.walkNames true again i names) = .ok s) :
      if names.all (·.isEmpty) then i = d else t.walkNames true again i names = .ok s := by
    split at found
    · rw [if_pos ‹_›]
      obtain rfl := Except.ok.inj found
      exact Option.some.inj node
    · rwa [if_neg ‹_›]
  -- The guards of the walk, one after the other; what comes behind the name does not decide them.
  simp only [walkNames] at found
  split at found
  · cases found
  next inside =>
  rw [Bool.not_eq_true, Bool.not_eq_false'] at inside
  split at found
  next still =>
    rw [Bool.or_eq_true, decide_eq_true_iff, decide_eq_true_iff] at still
    exact .inl ⟨here, goes found, fun follow again more rest => by
      simp [walkNames, inside, still, rest]⟩
  next moves =>
  rw [Bool.or_eq_true, decide_eq_true_iff, decide_eq_true_iff] at moves
  split at found
  next above =>
    exact .inl ⟨t.parent here, goes found, fun follow again more rest => by
      simp [walkNames, inside, above, rest]⟩
  next below =>
  split at found
  · cases found
  next short =>
  split at found
  next =>
    split at found
    · obtain rfl := Except.ok.inj found
      cases node
    · cases found
  next i entry =>
  split at found
  next target content =>
    refine .inr ⟨_, target, by simpa using found, fun follow again more rest => ?_⟩
    have some : more.isEmpty = false := by cases more <;> simp_all
    simp [walkNames, inside, moves, below, short, entry, content, some]
  next content =>
    exact .inl ⟨i, goes found, fun follow again more rest => by
      simp [walkNames, inside, moves, below, short, entry, content, rest]⟩
  next other =>
    -- Such a node may be the last one, but it is no directory.
    split at found
    · obtain rfl := Except.ok.inj found
      obtain rfl := Option.some.inj node
      simp_all [isDirectory]
    · cases found

theorem eq_of_walkNames_blanks (found : t.walkNames true again here blanks = .ok s)
    (node : s.node? = some d) (blank : blanks.all (·.isEmpty) = true) : here = d := by
  cases blanks with
  | nil =>
    obtain rfl := Except.ok.inj found
    exact Option.some.inj node
  | cons first blanks =>
    rw [List.all_cons, Bool.and_eq_true, String.isEmpty_iff] at blank
    obtain ⟨rfl, blank⟩ := blank
    simp only [walkNames, blank] at found
    split at found
    · cases found
    · obtain rfl := Except.ok.inj found
      exact Option.some.inj node

/-- Who gets to a directory along some names finds there what comes behind them. -/
theorem walk_concat (found : t.walk true links here (names ++ blanks) = .ok s)
    (node : s.node? = some d) (there : t.isDirectory d = true)
    (blank : blanks.all (·.isEmpty) = true) (plain : t.Plain follow d name) :
    t.walk follow links here (names ++ [name]) = t.spotIn d name := by
  -- Names of a link are put in front of the others, so the outer induction is on the links.
  induction links generalizing here names with
  | zero => cases found
  | succ links further =>
    simp only [walk] at found ⊢
    have last {names : List String} (blank : names.all (·.isEmpty) = true) :
        t.walkNames follow (t.walk follow links) d (names ++ [name]) = t.spotIn d name := by
      rw [walkNames_blanks there blank plain.some, plain.walkNames_eq there]
    induction names generalizing here with
    | nil =>
      obtain rfl := eq_of_walkNames_blanks found node blank
      exact last rfl
    | cons first names ih =>
      have more : (names ++ [name]).all (·.isEmpty) = false := by simp [plain.some]
      rw [List.cons_append] at found ⊢
      rcases walkNames_cons found node there with ⟨i, goes, same⟩ | ⟨i, target, goes, same⟩
      · rw [same _ _ _ more]
        rw [List.all_append, blank, Bool.and_true] at goes
        by_cases ends : names.all (·.isEmpty) = true
        · rw [if_pos ends] at goes
          rw [goes, last ends]
        · rw [if_neg ends] at goes
          exact ih goes
      · rw [same _ _ _ more, ← List.append_assoc]
        rw [← List.append_assoc] at goes
        exact further goes

theorem spot_eq_ok {path : String} (found : t.spot cwd path follow = .ok s) : path ≠ "" ∧
    t.walk follow (mostLinks + 1) (if Path.isAbsolute path then root else cwd) (Path.names path) =
      .ok s := by
  unfold spot at found
  split at found
  · cases found
  next some =>
    split at found
    · cases found
    · exact ⟨by simpa using some, found⟩

theorem find_eq_ok {path : String} {i : Nat} (found : t.find cwd path follow = .ok i) :
    ∃ s, t.spot cwd path follow = .ok s ∧ s.node? = some i := by
  cases spot : t.spot cwd path follow with
  | error e => simp [find, spot, bind, Except.bind] at found
  | ok s =>
    refine ⟨s, rfl, ?_⟩
    simp only [find, spot, bind, Except.bind] at found
    split at found
    next node => rwa [Except.ok.inj found] at node
    · cases found

theorem findDirectory_eq_ok {path : String} (found : t.findDirectory cwd path = .ok d) :
    t.isDirectory d = true ∧ ∃ s, t.spot cwd path true = .ok s ∧ s.node? = some d := by
  cases node : t.find cwd path true with
  | error e => simp [findDirectory, node, bind, Except.bind] at found
  | ok i =>
    simp only [findDirectory, node, bind, Except.bind] at found
    split at found
    next there =>
      obtain rfl := Except.ok.inj found
      exact ⟨there, find_eq_ok node⟩
    · cases found

/-- A name that is put behind the path of a directory is looked for in that directory, by anybody
for whom the path leads there. -/
theorem spot_of_slash {directory above : String}
    (whole : directory = above ∨ directory = above ++ "/" ++ "")
    (found : t.findDirectory cwd directory = .ok d)
    (same : cwd' = cwd ∨ Path.isAbsolute directory = true) (slash : '/' ∉ name.toList)
    (plain : t.Plain follow d name) :
    t.spot cwd' (above ++ "/" ++ name) follow =
      if longestPath < (above ++ "/" ++ name).length then .error .nameTooLong
      else t.spotIn d name := by
  obtain ⟨there, s, spot, node⟩ := findDirectory_eq_ok found
  obtain ⟨given, walk⟩ := spot_eq_ok spot
  obtain ⟨blanks, blank, split⟩ := Path.names_of_slash whole
  have nonempty : (above ++ "/" ++ name).isEmpty = false := by simp
  have origin : (if Path.isAbsolute directory = true then root else cwd') =
      if Path.isAbsolute directory = true then root else cwd := by
    rcases same with rfl | absolute
    · rfl
    · rw [if_pos absolute, if_pos absolute]
  rw [split] at walk
  rw [FileTree.spot, nonempty, if_neg Bool.false_ne_true, Path.names_append,
    Path.names_of_notMem slash, Path.isAbsolute_of_slash whole given, origin,
    walk_concat walk node there blank plain]

theorem findDirectory_empty (t : FileTree) (cwd : Nat) : t.findDirectory cwd "" ≠ .ok d := by
  intro found
  obtain ⟨-, s, spot, -⟩ := findDirectory_eq_ok found
  exact (spot_eq_ok spot).1 rfl

end FileTree

/-! ### Names in a directory -/

section

open Text.Bytes

/-- A path that leads to a name in the directory of another path. -/
structure LiesIn (path name directory : String) : Prop where
  isAbsolute_eq : Path.isAbsolute path = Path.isAbsolute directory
  names_eq : (Path.names path).filter (· ≠ "") = (Path.names directory).filter (· ≠ "") ++ [name]
  /-- The last name is looked for in that directory, and nowhere else. Who is somewhere else looks
  there too if the path begins at the root. -/
  spot_eq (t : FileTree) (cwd cwd' d : Nat) (follow : Bool)
    (found : t.findDirectory cwd (ofText directory) = .ok d)
    (same : cwd' = cwd ∨ Path.isAbsolute (ofText directory) = true)
    (rests : follow = true → ∀ i target, t.entry? d (ofText name) = some i →
      t.content i ≠ .link target) :
    t.spot cwd' (ofText path) follow =
      if FileTree.longestPath < (ofText path).length then .error .nameTooLong
      else t.spotIn d (ofText name)

variable {name directory : String}

theorem names_join (plain : '/' ∉ name.toList) (some : name ≠ "") (directory : String) :
    (Path.names (Path.join directory name)).filter (· ≠ "") =
      (Path.names directory).filter (· ≠ "") ++ [name] := by
  have last : Path.names name = [name] := Path.names_of_notMem plain
  by_cases given : directory = ""
  · subst given
    rw [Path.join_empty plain, last]
    simp [Path.names, Text.splitAt, some]
  · obtain ⟨above, whole, joined⟩ := Path.join_of_notMem plain given
    obtain ⟨blanks, blank, split⟩ := Path.names_of_slash whole
    have nothing : blanks.filter (· ≠ "") = [] := by simpa using blank
    rw [joined, Path.names_append, last, split, List.filter_append, List.filter_append, nothing]
    simp [some]

theorem isAbsolute_join (plain : '/' ∉ name.toList) (directory : String) :
    Path.isAbsolute (Path.join directory name) = Path.isAbsolute directory := by
  by_cases given : directory = ""
  · subst given
    rw [Path.join_empty plain, Path.isAbsolute_of_notMem plain]
    decide
  · obtain ⟨above, whole, joined⟩ := Path.join_of_notMem plain given
    rw [joined, Path.isAbsolute_of_slash whole given]

theorem join_liesIn (plain : '/' ∉ name.toList) (some : name ≠ "") (notHere : name ≠ ".")
    (notAbove : name ≠ "..") (directory : String) :
    LiesIn (Path.join directory name) name directory := by
  refine ⟨isAbsolute_join plain directory, names_join plain some directory, ?_⟩
  intro t cwd cwd' d follow found same rests
  have given : directory ≠ "" := by
    rintro rfl
    exact t.findDirectory_empty cwd found
  obtain ⟨above, whole, joined⟩ := Path.join_of_notMem plain given
  have bytes : ofText (Path.join directory name) = ofText above ++ "/" ++ ofText name := by
    rw [joined, ofText_append, ofText_append]
    rfl
  have whole : ofText directory = ofText above ∨ ofText directory = ofText above ++ "/" ++ "" :=
    whole.imp (congrArg ofText) fun same => by
      rw [same, ofText_append, ofText_append]
      rfl
  rw [bytes]
  exact FileTree.spot_of_slash whole found same (mt (mem_ofText (by decide)).mp plain)
    ⟨mt (eq_of_ofText_eq (by simp)) some, mt (eq_of_ofText_eq (by simp)) notHere,
      mt (eq_of_ofText_eq (by simp)) notAbove, rests⟩

end

end Host
end PipelineRunner
