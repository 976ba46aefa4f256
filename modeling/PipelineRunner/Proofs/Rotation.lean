import PipelineRunner.Engine.Rota

/-! The rota forgets nobody. Whatever the turns are for, a place that wants one is called at every
join on the way to it, or has the turn there, and no way of passing a turn on changes that. So the
whole comes to rest only when no place wants a turn. -/

namespace PipelineRunner

namespace Rota

variable {r : Rota} {join way : List Nat} {branch b : Nat} {branches : List Nat}

/-! ### Queues -/

@[simp] theorem queue_setQueue (r : Rota) (join branches : List Nat) :
    (r.setQueue join branches).queue join = branches := by
  simp [queue, setQueue]

theorem lookup_filter_ne {other : List Nat} (ne : other ≠ join)
    (queues : List (List Nat × List Nat)) :
    (queues.filter fun q => q.1 != join).lookup other = queues.lookup other := by
  induction queues with
  | nil => rfl
  | cons q rest ih =>
    obtain ⟨key, branches⟩ := q
    by_cases hk : key = join
    · have unequal : (other == key) = false := by simpa [hk] using ne
      simp [List.lookup_cons, hk ▸ unequal, hk, ih]
    · simp [List.lookup_cons, hk, ih]

theorem queue_setQueue_ne {other : List Nat} (ne : other ≠ join) (branches : List Nat) :
    (r.setQueue join branches).queue other = r.queue other := by
  have unequal : (other == join) = false := by simpa using ne
  simp [queue, setQueue, List.lookup_cons, unequal, lookup_filter_ne ne]

theorem mem_queue_enqueue (r : Rota) (join : List Nat) (branch : Nat) :
    branch ∈ (r.enqueue join branch).queue join := by
  unfold enqueue
  split
  · simpa using ‹(r.queue join).contains branch = true›
  · simp

theorem enqueue_keeps {other : List Nat} (h : b ∈ r.queue other) (join : List Nat) (branch : Nat) :
    b ∈ (r.enqueue join branch).queue other := by
  unfold enqueue
  split
  · exact h
  · by_cases same : other = join
    · subst same
      simp [h]
    · rwa [queue_setQueue_ne same]

theorem callFrom_keeps {other here : List Nat} (h : b ∈ r.queue other) (way : List Nat) :
    b ∈ (callFrom here way r).queue other := by
  induction way generalizing here r with
  | nil => exact h
  | cons branch way ih => exact ih (enqueue_keeps h _ _)

theorem call_keeps (h : b ∈ r.queue join) (place : List Nat) : b ∈ (r.call place).queue join :=
  callFrom_keeps h place

theorem mem_queue_callFrom (here join way : List Nat) (r : Rota) :
    branch ∈ (callFrom here (join ++ branch :: way) r).queue (here ++ join) := by
  induction join generalizing here r with
  | nil =>
    rw [List.append_nil]
    exact callFrom_keeps (mem_queue_enqueue r here branch) way
  | cons i join ih =>
    rw [List.append_cons here i join]
    exact ih (here ++ [i]) (r.enqueue here i)

/-- Whoever is called stands in all queues on the way. -/
theorem mem_queue_call (r : Rota) (join : List Nat) (branch : Nat) (way : List Nat) :
    branch ∈ (r.call (join ++ branch :: way)).queue join :=
  mem_queue_callFrom [] join way r

theorem enqueue_same (r : Rota) (join : List Nat) (branch : Nat) :
    (r.enqueue join branch).rounds = r.rounds ∧ (r.enqueue join branch).onTurn = r.onTurn := by
  unfold enqueue
  split <;> exact ⟨rfl, rfl⟩

theorem callFrom_same (here way : List Nat) (r : Rota) :
    (callFrom here way r).rounds = r.rounds ∧ (callFrom here way r).onTurn = r.onTurn := by
  induction way generalizing here r with
  | nil => exact ⟨rfl, rfl⟩
  | cons branch way ih =>
    obtain ⟨rounds, onTurn⟩ := ih (here ++ [branch]) (r.enqueue here branch)
    exact ⟨rounds.trans (enqueue_same ..).1, onTurn.trans (enqueue_same ..).2⟩

@[simp] theorem call_rounds (r : Rota) (place : List Nat) : (r.call place).rounds = r.rounds :=
  (callFrom_same [] place r).1

@[simp] theorem call_onTurn (r : Rota) (place : List Nat) : (r.call place).onTurn = r.onTurn :=
  (callFrom_same [] place r).2

theorem calls_same (places : List (List Nat)) (r : Rota) :
    (places.foldl call r).rounds = r.rounds ∧ (places.foldl call r).onTurn = r.onTurn := by
  induction places generalizing r with
  | nil => exact ⟨rfl, rfl⟩
  | cons place rest ih => simpa using ih (r.call place)

/-! ### Rounds -/

/-- The place that has the turn within some rounds. -/
def placeOf : List Round → List Nat
  | [] => []
  | round :: _ => round.join ++ [round.branch]

theorem place_eq (r : Rota) : r.place = placeOf r.rounds := by
  unfold place placeOf
  cases r.rounds <;> rfl

@[simp] theorem placeOf_cons (round : Round) (outer : List Round) :
    placeOf (round :: outer) = round.join ++ [round.branch] := rfl

/-- Rounds are nested: each is within the turn of the next one. -/
def Nested : List Round → Prop
  | [] => True
  | round :: outer => round.join = placeOf outer ∧ Nested outer

variable {rounds outer : List Round} {round : Round}

/-- The place that has the turn is below all joins that have rounds. -/
theorem Nested.below (nested : Nested rounds) (mem : round ∈ rounds) :
    ∃ way, placeOf rounds = round.join ++ round.branch :: way := by
  induction rounds with
  | nil => cases mem
  | cons first outer ih =>
    rcases List.mem_cons.mp mem with rfl | mem
    · exact ⟨[], rfl⟩
    · obtain ⟨way, below⟩ := ih nested.2 mem
      exact ⟨way ++ [first.branch], by rw [placeOf_cons, nested.1, below]; simp⟩

/-- On the way to the place that has the turn there are rounds everywhere. -/
theorem Nested.on_the_way (nested : Nested rounds) (h : placeOf rounds = join ++ branch :: way) :
    ∃ round ∈ rounds, round.join = join ∧ round.branch = branch := by
  induction rounds generalizing way with
  | nil => simp [placeOf] at h
  | cons first outer ih =>
    rcases List.eq_nil_or_concat way with rfl | ⟨init, last, rfl⟩
    · obtain ⟨same, hb⟩ := List.append_inj' h rfl
      exact ⟨first, List.mem_cons_self, same, (List.cons.inj hb).1⟩
    · rw [List.concat_eq_append, ← List.cons_append, ← List.append_assoc] at h
      obtain ⟨above, -⟩ := List.append_inj' h rfl
      obtain ⟨round, mem, rest⟩ := ih nested.2 (nested.1.symm.trans above)
      exact ⟨round, List.mem_cons_of_mem _ mem, rest⟩

/-- No round further out is at the place within it. -/
theorem Nested.no_round (nested : Nested rounds) (mem : round ∈ rounds) :
    round.join ≠ placeOf rounds := by
  obtain ⟨way, below⟩ := nested.below mem
  intro same
  have lengths := congrArg List.length (same.trans below)
  simp at lengths

/-! ### Who is called -/

section

variable (r : Rota) (wants : List Nat → Prop)

/-- At every join on the way, a place that wants a turn is called or has the turn. -/
def Covered (rounds : List Round) : Prop :=
  ∀ join branch way, wants (join ++ branch :: way) →
    branch ∈ r.queue join ∨ ∃ round ∈ rounds, round.join = join ∧ round.branch = branch

/-- If the place that has the turn, or one below it, goes on wanting a turn, it is called. -/
def Spent (rounds : List Round) : Prop :=
  ∀ way, wants (placeOf rounds ++ way) →
    match rounds with
    | [] => r.called = true
    | round :: _ => round.branch ∈ r.queue round.join

/-- What holds of the rota at any time: `wants` are the places at which something can be done, and
`waits` the joins that wait for branches. -/
structure Keeps (waits : List Nat → Prop) : Prop where
  nested : Nested r.rounds
  idle : r.onTurn = false → r.rounds = []
  joins : ∀ round ∈ r.rounds, waits round.join
  covered : r.Covered wants r.rounds
  /-- The whole has a turn or wants one. -/
  stirred : ∀ place, wants place → r.onTurn = true ∨ r.called = true

end

variable {wants wants' waits waits' : List Nat → Prop}

theorem Spent.of_quiet (quiet : ∀ way, ¬wants (placeOf rounds ++ way)) : r.Spent wants rounds :=
  fun way h => absurd h (quiet way)

/-- Where a round finds nobody in its queue, nothing is wanted below its join. -/
theorem quiet_of_empty (nested : Nested (round :: outer)) (empty : r.queue round.join = [])
    (settled : ¬wants round.join) (covered : r.Covered wants (round :: outer))
    (spent : r.Spent wants (round :: outer)) (way : List Nat) : ¬wants (placeOf outer ++ way) := by
  rw [← nested.1]
  cases way with
  | nil => simpa using settled
  | cons branch way =>
    intro h
    rcases covered _ _ _ h with queued | ⟨other, mem, same, rfl⟩
    · simp [empty] at queued
    rcases List.mem_cons.mp mem with rfl | mem
    · have queued : other.branch ∈ r.queue other.join :=
        spent way (by simpa [placeOf] using h)
      simp [empty] at queued
    · exact nested.2.no_round mem (same.trans nested.1)

theorem Covered.outwards (nested : Nested (round :: outer))
    (covered : r.Covered wants (round :: outer))
    (spent : r.Spent wants (round :: outer)) : r.Covered wants outer := by
  intro join branch way h
  rcases covered _ _ _ h with queued | ⟨other, mem, rfl, rfl⟩
  · exact .inl queued
  rcases List.mem_cons.mp mem with rfl | mem
  · exact .inl (spent way (by simpa [placeOf] using h))
  · exact .inr ⟨other, mem, rfl, rfl⟩

/-- Who comes next in a round has the turn; if nobody does, the turn goes outwards. -/
theorem keeps_pass {next : Round} (onTurn : r.onTurn = true) (nested : Nested (round :: outer))
    (same : next.join = round.join) (joins : ∀ other ∈ round :: outer, waits other.join)
    (settled : ¬wants round.join) (covered : r.Covered wants (round :: outer))
    (spent : r.Spent wants (round :: outer))
    (outwards : r.Covered wants outer → r.Spent wants outer →
      (r.yieldWithin outer).Keeps wants waits) :
    ((r.next? next outer).getD (r.yieldWithin outer)).Keeps wants waits := by
  cases queue : r.queue round.join with
  | nil =>
    simp only [next?, same, queue, Option.getD_none]
    exact outwards (covered.outwards nested spent)
      (.of_quiet (quiet_of_empty nested queue settled covered spent))
  | cons first rest =>
    simp only [next?, same, queue, Option.getD_some]
    refine ⟨nested, ?_, ?_, ?_, fun _ _ => .inl onTurn⟩
    · intro off
      cases onTurn.symm.trans off
    · intro other mem
      rcases List.mem_cons.mp mem with rfl | mem
      · exact same ▸ joins round List.mem_cons_self
      · exact joins other (List.mem_cons_of_mem _ mem)
    · intro join branch way h
      rcases covered.outwards nested spent _ _ _ h with queued | ⟨other, mem, at_⟩
      · by_cases here : join = round.join
        · subst here
          rw [queue] at queued
          rcases List.mem_cons.mp queued with rfl | queued
          · exact .inr ⟨_, List.mem_cons_self, rfl, rfl⟩
          · refine .inl (show branch ∈ (r.setQueue round.join rest).queue round.join from ?_)
            simpa using queued
        · refine .inl (show branch ∈ (r.setQueue round.join rest).queue join from ?_)
          rwa [queue_setQueue_ne here]
      · exact .inr ⟨other, List.mem_cons_of_mem _ mem, at_⟩

/-- A round is broken off, or goes on with who comes next in it. -/
theorem yieldWithin_cons (r : Rota) (round : Round) (outer : List Round) :
    ∃ (broken : Bool) (left restless : Nat),
      r.yieldWithin (round :: outer) =
        if broken then (r.call round.join).yieldWithin outer
        else (r.next? { round with left, restless } outer).getD (r.yieldWithin outer) :=
  ⟨_, _, _, rfl⟩

theorem keeps_yieldWithin (settled : ∀ join, waits join → ¬wants join) (onTurn : r.onTurn = true)
    (nested : Nested rounds) (joins : ∀ round ∈ rounds, waits round.join)
    (covered : r.Covered wants rounds) (spent : r.Spent wants rounds) :
    (r.yieldWithin rounds).Keeps wants waits := by
  induction rounds generalizing r with
  | nil =>
    refine ⟨trivial, fun _ => rfl, ?_, fun join branch way h => .inl ?_, fun place h => .inr ?_⟩
    · intro round mem
      cases mem
    · exact (covered join branch way h).resolve_right (by simp)
    · exact spent place (by simpa [placeOf] using h)
  | cons round outer ih =>
    have joins' (other : Round) (mem : other ∈ outer) : waits other.join :=
      joins other (List.mem_cons_of_mem _ mem)
    obtain ⟨broken, left, restless, yields⟩ := yieldWithin_cons r round outer
    rw [yields]
    split
    · -- The round is asked for again where it is within another one.
      refine ih (by simpa using onTurn) nested.2 joins' ?_ ?_
      · intro join branch way h
        exact (covered.outwards nested spent join branch way h).imp_left (call_keeps · _)
      · intro way h
        cases outer with
        | nil => rfl
        | cons other rest => exact nested.1 ▸ mem_queue_call r other.join other.branch []
    · exact keeps_pass onTurn nested rfl joins (settled _ (joins round List.mem_cons_self)) covered
        spent fun covered spent => ih onTurn nested.2 joins' covered spent

namespace Keeps

theorem weaken (keeps : r.Keeps wants waits) (fewer : ∀ place, wants' place → wants place) :
    r.Keeps wants' waits :=
  ⟨keeps.nested, keeps.idle, keeps.joins, fun _ _ _ h => keeps.covered _ _ _ (fewer _ h),
    fun place h => keeps.stirred place (fewer _ h)⟩

theorem here (keeps : r.Keeps wants waits) (onTurn : r.onTurn = true)
    (joins : ∀ round ∈ r.rounds, waits' round.join)
    (fewer : ∀ place, wants' place → wants place ∨ place = r.place) : r.Keeps wants' waits' := by
  refine ⟨keeps.nested, keeps.idle, joins, fun join branch way h => ?_, fun _ _ => .inl onTurn⟩
  rcases fewer _ h with h | here
  · exact keeps.covered _ _ _ h
  · exact .inr (keeps.nested.on_the_way ((place_eq r).symm.trans here.symm))

theorem call (keeps : r.Keeps wants waits) (place : List Nat) :
    (r.call place).Keeps (fun p => wants p ∨ p = place) waits := by
  refine ⟨by simpa using keeps.nested, by simpa using keeps.idle, by simpa using keeps.joins,
    fun join branch way h => ?_, fun _ _ => .inr rfl⟩
  rcases h with h | rfl
  · exact (keeps.covered _ _ _ h).imp (call_keeps · _) (by simp)
  · exact .inl (mem_queue_call r join branch way)

theorem calls (keeps : r.Keeps wants waits) (places : List (List Nat)) :
    (places.foldl Rota.call r).Keeps (fun p => wants p ∨ p ∈ places) waits := by
  induction places generalizing r wants with
  | nil => exact keeps.weaken (by simp)
  | cons place rest ih =>
    exact (ih (keeps.call place)).weaken fun p h => by simpa [or_assoc] using h

theorem begin (keeps : r.Keeps wants waits) : r.begin.Keeps wants waits :=
  ⟨keeps.nested, nofun, keeps.joins, keeps.covered, fun _ _ => .inl rfl⟩

/-- Branches that come into being are called. -/
theorem gather (keeps : r.Keeps wants waits) (onTurn : r.onTurn = true)
    (joins : ∀ round ∈ r.rounds, waits' round.join) {branches : Nat}
    (fewer : ∀ place, wants' place → (wants place ∧ ¬r.place <+: place) ∨ place = r.place ∨
      ∃ i < branches, place = r.place ++ [i]) :
    (r.gather r.place branches).Keeps wants' waits' := by
  refine ⟨keeps.nested, keeps.idle, joins, fun join branch way h => ?_, fun _ _ => .inl onTurn⟩
  have on_the_way {way : List Nat} (here : r.place = join ++ branch :: way) :
      ∃ round ∈ r.rounds, round.join = join ∧ round.branch = branch :=
    keeps.nested.on_the_way ((place_eq r).symm.trans here)
  rcases fewer _ h with ⟨h, apart⟩ | here | ⟨i, lt, below⟩
  · have elsewhere : join ≠ r.place := by
      rintro rfl
      exact apart (List.prefix_append _ _)
    unfold Rota.gather
    rw [queue_setQueue_ne elsewhere]
    exact keeps.covered _ _ _ h
  · exact .inr (on_the_way here.symm)
  · rcases List.eq_nil_or_concat way with rfl | ⟨init, last, rfl⟩
    · obtain ⟨rfl, hb⟩ := List.append_inj' below rfl
      obtain rfl := (List.cons.inj hb).1
      exact .inl (by simpa [Rota.gather] using lt)
    · rw [List.concat_eq_append, ← List.cons_append, ← List.append_assoc] at below
      exact .inr (on_the_way (List.append_inj' below rfl).1.symm)

variable (settled : ∀ join, waits join → ¬wants join)

include settled

/-- A place at which nothing is wanted any more, nor below it, gives its turn up. -/
theorem yield (keeps : r.Keeps wants waits) (onTurn : r.onTurn = true)
    (quiet : ∀ way, ¬wants (r.place ++ way)) : r.yield.Keeps wants waits :=
  keeps_yieldWithin settled onTurn keeps.nested keeps.joins keeps.covered
    (.of_quiet fun way => place_eq r ▸ quiet way)

/-- A join that waits passes its turn on to its branches. -/
theorem openRound (keeps : r.Keeps wants waits) (onTurn : r.onTurn = true) (join : waits r.place)
    (branches : Nat) : (r.openRound branches).Keeps wants waits := by
  have nested : Nested ({ join := r.place, branch := 0, left := branches } :: r.rounds) :=
    ⟨place_eq r, keeps.nested⟩
  refine keeps_pass onTurn nested rfl ?_ (settled _ join) ?_ ?_
    fun covered spent => keeps_yieldWithin settled onTurn keeps.nested keeps.joins covered spent
  · intro other mem
    rcases List.mem_cons.mp mem with rfl | mem
    · exact join
    · exact keeps.joins other mem
  · intro join branch way h
    exact (keeps.covered _ _ _ h).imp_right fun ⟨other, mem, at_⟩ =>
      ⟨other, List.mem_cons_of_mem _ mem, at_⟩
  · intro way h
    rcases keeps.covered r.place 0 way (by simpa using h) with queued | ⟨other, mem, at_, -⟩
    · exact queued
    · exact absurd (at_.trans (place_eq r)) (keeps.nested.no_round mem)

end Keeps

/-- A branch that has come in leaves its turn to the others, or to the join when it is the last. -/
theorem Keeps.renew (keeps : r.Keeps wants waits) (settled : ∀ join, waits' join → ¬wants' join)
    (onTurn : r.onTurn = true) (within : r.rounds = round :: outer) (branches : Nat)
    (join : branches ≠ 0 → waits' round.join) (joins : ∀ other ∈ outer, waits' other.join)
    (fewer : ∀ place, wants' place → wants place ∨ place = round.join)
    (quiet : ∀ way, ¬wants' (r.place ++ way)) : (r.renew branches).Keeps wants' waits' := by
  have nested : Nested (round :: outer) := within ▸ keeps.nested
  have covered : r.Covered wants' (round :: outer) := by
    intro join branch way h
    rcases fewer _ h with h | here
    · exact within ▸ keeps.covered _ _ _ h
    · obtain ⟨other, mem, at_⟩ := nested.2.on_the_way (nested.1.symm.trans here.symm)
      exact .inr ⟨other, List.mem_cons_of_mem _ mem, at_⟩
  have spent : r.Spent wants' (round :: outer) :=
    .of_quiet fun way => within ▸ place_eq r ▸ quiet way
  unfold Rota.renew
  rw [within]
  dsimp only
  split
  · exact ⟨nested.2, by simp [onTurn], joins, covered.outwards nested spent, fun _ _ => .inl onTurn⟩
  next some =>
    refine keeps_pass onTurn nested rfl (fun other mem => ?_) (settled _ (join some)) covered
      spent fun covered spent => keeps_yieldWithin settled onTurn nested.2 joins covered spent
    rcases List.mem_cons.mp mem with rfl | mem
    · exact join some
    · exact joins other mem

end Rota
end PipelineRunner
