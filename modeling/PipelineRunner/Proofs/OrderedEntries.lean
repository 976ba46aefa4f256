import Mathlib.Data.Finset.Card
import Mathlib.Data.List.Induction
import PipelineRunner.Pipeline.Basic

/-! Maps that have been filled from nothing, by one entry after the other. Their names stand in the
order in which they first came, none twice, and each has the value that was put under it last: an
entry that is put later leaves all other entries as they are and where they are. The parameters of
steps and the results of stages are such maps, so a step with different names passes on just what it
declares. -/

namespace PipelineRunner.OrderedMap

variable {β : Type} {m : OrderedMap β} {entries : List (String × β)} {name other : String}
  {value : β}

/-! ### One entry -/

theorem get?_eq_none : get? name m = none ↔ name ∉ names m := by
  induction m with
  | nil => simp [get?, names]
  | cons e rest ih =>
    obtain ⟨n, v⟩ := e
    by_cases h : n = name
    · simp [get?, names, h]
    · simpa [get?, names, h, Ne.symm h] using ih

/-- Where no name stands twice, the entries are what is found under their names. -/
theorem mem_iff_get? (once : (names m).Nodup) : (name, value) ∈ m ↔ get? name m = some value := by
  induction m with
  | nil => simp [get?]
  | cons e rest ih =>
    obtain ⟨n, v⟩ := e
    obtain ⟨apart, once⟩ : n ∉ names rest ∧ (names rest).Nodup := List.nodup_cons.mp once
    rw [List.mem_cons, ih once]
    by_cases h : n = name
    · subst h
      simp [get?, get?_eq_none.mpr apart, eq_comm]
    · simp [get?, h, Ne.symm h]

/-- Another entry stays what and where it is. -/
theorem getElem?_insert_of_ne (ne : other ≠ name) (value : β) (m : OrderedMap β) (i : Nat) (v : β) :
    (insert name value m)[i]? = some (other, v) ↔ m[i]? = some (other, v) := by
  induction m generalizing i with
  | nil => cases i <;> simp [insert, Ne.symm ne]
  | cons e rest ih =>
    obtain ⟨n, u⟩ := e
    by_cases h : n = name
    · subst h
      cases i <;> simp [insert, Ne.symm ne]
    · rw [insert, if_neg h]
      cases i with
      | zero => simp
      | succ i => simpa using ih i

theorem insert_of_notMem (new : name ∉ names m) (value : β) :
    insert name value m = m ++ [(name, value)] := by
  induction m with
  | nil => rfl
  | cons e rest ih =>
    obtain ⟨n, v⟩ := e
    have apart : name ≠ n ∧ name ∉ names rest := by simpa [names] using new
    rw [insert, if_neg (Ne.symm apart.1), ih apart.2, List.cons_append]

/-! ### All entries -/

theorem ofEntries_concat (entries : List (String × β)) (entry : String × β) :
    ofEntries (entries ++ [entry]) = insert entry.1 entry.2 (ofEntries entries) := by
  simp [ofEntries]

/-- A map has each name where it came first. -/
theorem names_ofEntries (entries : List (String × β)) :
    names (ofEntries entries) = (entries.map (·.1)).eraseDups := by
  induction entries using List.reverseRecOn with
  | nil => rfl
  | append_singleton init entry ih =>
    rw [ofEntries_concat, names_insert, ih, List.map_append, List.eraseDups_append]
    by_cases h : entry.1 ∈ init.map (·.1) <;>
      simp [h, List.removeAll, List.eraseDups_cons, -List.mem_map]

theorem mem_names_ofEntries : name ∈ names (ofEntries entries) ↔ name ∈ entries.map (·.1) := by
  rw [names_ofEntries, List.mem_eraseDups]

/-- A name stands in front of those that have first come later. -/
theorem pairwise_names_ofEntries (entries : List (String × β)) :
    (names (ofEntries entries)).Pairwise fun a b =>
      (entries.map (·.1)).idxOf a < (entries.map (·.1)).idxOf b := by
  induction entries using List.reverseRecOn with
  | nil => exact .nil
  | append_singleton init entry ih =>
    have apart : (names (ofEntries init)).Pairwise fun a b =>
        ((init ++ [entry]).map (·.1)).idxOf a < ((init ++ [entry]).map (·.1)).idxOf b := by
      refine ih.imp_of_mem fun {a b} a_mem b_mem before => ?_
      rwa [List.map_append, List.idxOf_append_of_mem (mem_names_ofEntries.mp a_mem),
        List.idxOf_append_of_mem (mem_names_ofEntries.mp b_mem)]
    rw [ofEntries_concat, names_insert]
    by_cases old : entry.1 ∈ names (ofEntries init)
    · rwa [if_pos old]
    · have new : entry.1 ∉ init.map (·.1) := mt mem_names_ofEntries.mpr old
      rw [if_neg old, List.pairwise_append]
      refine ⟨apart, List.pairwise_singleton _ _, fun a a_mem b b_mem => ?_⟩
      have earlier := mem_names_ofEntries.mp a_mem
      rw [List.mem_singleton.mp b_mem, List.map_append, List.idxOf_append_of_notMem new,
        List.idxOf_append_of_mem earlier]
      exact Nat.lt_add_right _ (List.idxOf_lt_length_of_mem earlier)

theorem nodup_names_ofEntries (entries : List (String × β)) : (names (ofEntries entries)).Nodup :=
  (pairwise_names_ofEntries entries).imp fun earlier same => by
    subst same
    exact Nat.lt_irrefl _ earlier

/-- There is an entry for each name that has come. -/
theorem length_ofEntries (entries : List (String × β)) :
    (ofEntries entries).length = (entries.map (·.1)).toFinset.card := by
  have same : (entries.map (·.1)).toFinset = (names (ofEntries entries)).toFinset := by
    ext name
    rw [List.mem_toFinset, List.mem_toFinset, mem_names_ofEntries]
  rw [same, List.toFinset_card_of_nodup (nodup_names_ofEntries entries), names, List.length_map]

/-- Of a repeated name the last value counts. -/
theorem get?_ofEntries (name : String) (entries : List (String × β)) :
    get? name (ofEntries entries) = entries.reverse.lookup name := by
  induction entries using List.reverseRecOn with
  | nil => rfl
  | append_singleton init entry ih =>
    rw [ofEntries_concat, List.reverse_concat, List.lookup_cons]
    by_cases h : name = entry.1
    · simp [h]
    · have other : (name == entry.1) = false := by simpa using h
      rw [get?_insert_of_ne h, ih, other]

/-- A name has the value of the entry behind which it does not come again. -/
theorem get?_ofEntries_eq_some : get? name (ofEntries entries) = some value ↔
    ∃ before after, entries = before ++ (name, value) :: after ∧ name ∉ after.map (·.1) := by
  rw [get?_ofEntries, List.lookup_eq_some_iff]
  constructor
  · rintro ⟨later, earlier, split, apart⟩
    refine ⟨earlier.reverse, later.reverse, ?_, ?_⟩
    · rw [← List.reverse_reverse entries, split]
      simp
    · rw [List.map_reverse, List.mem_reverse]
      intro mem
      obtain ⟨e, e_mem, rfl⟩ := List.mem_map.mp mem
      simpa using apart e e_mem
  · rintro ⟨before, after, rfl, last⟩
    refine ⟨after.reverse, before.reverse, by simp, fun e mem => ?_⟩
    have ne : name ≠ e.1 := fun same =>
      last (List.mem_map.mpr ⟨e, List.mem_reverse.mp mem, same.symm⟩)
    simpa using ne

/-- Entries of different names stay as they are. -/
theorem ofEntries_of_nodup (distinct : (entries.map (·.1)).Nodup) :
    ofEntries entries = entries := by
  induction entries using List.reverseRecOn with
  | nil => rfl
  | append_singleton init entry ih =>
    rw [List.map_append, List.map_singleton, List.nodup_append] at distinct
    obtain ⟨earlier, -, apart⟩ := distinct
    rw [ofEntries_concat, ih earlier]
    exact insert_of_notMem (fun mem => apart _ mem _ (by simp) rfl) _

/-- A map that has been filled from nothing, by one entry after the other or by many at once, with
all entries that have been put into it. -/
inductive Filled : OrderedMap β → List (String × β) → Prop where
  | empty : Filled [] []
  | collected (entries : List (String × β)) : Filled (ofEntries entries) entries
  | inserted {m : OrderedMap β} {entries : List (String × β)} (filled : Filled m entries)
      (name : String) (value : β) : Filled (insert name value m) (entries ++ [(name, value)])

/-- It does not matter whether entries are put one by one or at once. -/
theorem Filled.eq_ofEntries (filled : Filled m entries) : m = ofEntries entries := by
  induction filled with
  | empty => rfl
  | collected => rfl
  | inserted filled name value ih => rw [ofEntries_concat, ih]

/-- Maps keep the order of insertion. However a map has been filled, no name stands in it twice; its
names are those that have come, each in front of all that first came later; a name has the value
that came last with it; there are as many entries as names; and whatever is put next leaves the
entries of other names as they are and where they are. So a step with different names passes on
exactly what it declares, in its order. -/
theorem Filled.keeps_insertion_order (filled : Filled m entries) :
    (names m).Nodup ∧ (∀ name, name ∈ names m ↔ name ∈ entries.map (·.1)) ∧
      ((names m).Pairwise fun a b => (entries.map (·.1)).idxOf a < (entries.map (·.1)).idxOf b) ∧
      (∀ name value, get? name m = some value ↔
        ∃ before after, entries = before ++ (name, value) :: after ∧ name ∉ after.map (·.1)) ∧
      (∀ name, get? name m = none ↔ name ∉ entries.map (·.1)) ∧
      (∀ name value, (name, value) ∈ m ↔ get? name m = some value) ∧
      m.length = (entries.map (·.1)).toFinset.card ∧
      (∀ name value (i : Nat) other v, other ≠ name →
        ((insert name value m)[i]? = some (other, v) ↔ m[i]? = some (other, v))) ∧
      ∀ command params, (params.map Param.key).Nodup →
        (Step.multi command params).command = command ∧
          (Step.multi command params).params = params.map fun p => (p.key, p.value) := by
  obtain rfl := filled.eq_ofEntries
  have once := nodup_names_ofEntries entries
  refine ⟨once, fun name => mem_names_ofEntries, pairwise_names_ofEntries entries,
    fun name value => get?_ofEntries_eq_some, fun name => ?_, fun name value => mem_iff_get? once,
    length_ofEntries entries, fun name value i other v ne => getElem?_insert_of_ne ne value _ i v,
    ?_⟩
  · rw [get?_eq_none, mem_names_ofEntries]
  · intro command params distinct
    refine ⟨rfl, ofEntries_of_nodup ?_⟩
    rwa [List.map_map]

/-- A value that is put a second time stands where the first one did, and is the one found. -/
theorem container_replaced_in_place :
    let m : StepParams := insert "containerId" "b" (ofEntries [("containerId", "a"), ("text", "x")])
    Filled m [("containerId", "a"), ("text", "x"), ("containerId", "b")] ∧
      get? "containerId" m = some "b" ∧ m.length = 2 ∧
      (insert "text" "y" m)[0]? = some ("containerId", "b") ∧
      (Step.multi "git" [⟨"url", "u"⟩, ⟨"branch", "main"⟩]).params =
        [("url", "u"), ("branch", "main")] := by
  have filled := (Filled.collected [("containerId", "a"), ("text", "x")]).inserted "containerId" "b"
  obtain ⟨-, -, -, latest, -, -, size, others, passed⟩ := filled.keeps_insertion_order
  refine ⟨filled, (latest _ _).mpr ⟨[("containerId", "a"), ("text", "x")], [], rfl, by simp⟩, ?_,
    (others _ _ _ _ _ (by decide)).mpr rfl, (passed "git" _ (by decide)).2⟩
  rw [size]
  rfl

end PipelineRunner.OrderedMap
