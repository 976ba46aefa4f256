/-!
Maps from names to values that keep the order in which the names first came. Putting a value under
a name that is there replaces the old value in its place.
-/

namespace PipelineRunner

/-- Entries in the order of their names' first insertion. -/
abbrev OrderedMap (β : Type) := List (String × β)

namespace OrderedMap

variable {β : Type}

def insert (name : String) (value : β) : OrderedMap β → OrderedMap β
  | [] => [(name, value)]
  | (n, v) :: rest => if n = name then (n, value) :: rest else (n, v) :: insert name value rest

def get? (name : String) : OrderedMap β → Option β
  | [] => none
  | (n, v) :: rest => if n = name then some v else get? name rest

def names (m : OrderedMap β) : List String := m.map (·.1)

/-- The map that putting the entries one after the other yields. -/
def ofEntries (entries : List (String × β)) : OrderedMap β :=
  entries.foldl (fun m (n, v) => insert n v m) []

@[simp]
theorem get?_insert_self (name : String) (value : β) (m : OrderedMap β) :
    get? name (insert name value m) = some value := by
  induction m with
  | nil => simp [insert, get?]
  | cons e rest ih =>
    obtain ⟨n, v⟩ := e
    by_cases h : n = name <;> simp [insert, get?, h, ih]

theorem get?_insert_of_ne {name other : String} (h : other ≠ name) (value : β)
    (m : OrderedMap β) : get? other (insert name value m) = get? other m := by
  induction m with
  | nil => simp [insert, get?, Ne.symm h]
  | cons e rest ih =>
    obtain ⟨n, v⟩ := e
    by_cases hn : n = name
    · subst hn
      simp [insert, get?, Ne.symm h]
    · rw [insert, if_neg hn]
      simp only [get?, ih]

/-- Putting a value keeps the names, but for a new name at the end. -/
theorem names_insert (name : String) (value : β) (m : OrderedMap β) :
    names (insert name value m) = if name ∈ names m then names m else names m ++ [name] := by
  induction m with
  | nil => simp [insert, names]
  | cons e rest ih =>
    obtain ⟨n, v⟩ := e
    by_cases h : n = name
    · simp [insert, names, h]
    · have step :
          names (insert name value ((n, v) :: rest)) = n :: names (insert name value rest) := by
        simp [insert, names, h]
      have head : names ((n, v) :: rest) = n :: names rest := rfl
      rw [step, head, ih]
      by_cases hm : name ∈ names rest <;> simp [hm, Ne.symm h]

end OrderedMap
end PipelineRunner
