import PipelineRunner.Cancellation

/-! The forest of tokens beside the history of what has been done with them. The history alone tells
which tokens a cancellation hits; the forest answers accordingly, by its walk up the parents as well
as by its subscriptions, in whatever order tokens are made, cancelled, waited for and looked at. -/

namespace PipelineRunner

/-! ### Walks up the parents -/

namespace CancelNodes

variable {nodes older : CancelNodes} {node : CancelNode} {n m : Nat}

theorem lineage_lt (h : m ∈ lineage nodes n) : m < nodes.length := by
  induction nodes generalizing n with
  | nil => simp [lineage] at h
  | cons node older ih =>
    simp only [lineage] at h
    simp only [List.length_cons]
    split at h
    next here =>
      rcases List.mem_cons.mp h with rfl | h
      · omega
      · split at h
        · have := ih h
          omega
        · simp at h
    next =>
      have := ih h
      omega

theorem lineage_le (h : m ∈ lineage nodes n) : m ≤ n := by
  induction nodes with
  | nil => simp [lineage] at h
  | cons node older ih =>
    simp only [lineage] at h
    split at h
    next here =>
      rcases List.mem_cons.mp h with rfl | h
      · exact Nat.le_refl _
      · split at h
        · have := lineage_lt h
          omega
        · simp at h
    next => exact ih h

theorem lineage_cons_of_lt (h : n < older.length) :
    lineage (node :: older) n = lineage older n := by
  rw [lineage, if_neg (Nat.ne_of_lt h)]

theorem self_mem_lineage (h : n < nodes.length) : n ∈ lineage nodes n := by
  induction nodes with
  | nil => simp at h
  | cons node older ih =>
    simp only [lineage]
    split
    next => simp
    next other =>
      simp only [List.length_cons] at h
      exact ih (by omega)

theorem isMarked_cons_of_lt (h : n < older.length) :
    isMarked (node :: older) n = isMarked older n := by
  rw [isMarked, if_neg (Nat.ne_of_lt h)]

theorem isMarked_lt (h : isMarked nodes n = true) : n < nodes.length := by
  induction nodes with
  | nil => cases h
  | cons node older ih =>
    simp only [isMarked] at h
    simp only [List.length_cons]
    split at h
    next => omega
    next => exact Nat.lt_succ_of_lt (ih h)

/-- A new node is not cancelled by itself. -/
theorem isMarked_new (parent : Option Nat) :
    isMarked (⟨parent, false⟩ :: older) n = isMarked older n := by
  rw [isMarked]
  split
  next here =>
    refine (Bool.eq_false_iff.mpr fun marked => ?_).symm
    have := isMarked_lt marked
    omega
  next => rfl

theorem any_lineage_cons (p : Nat) :
    (lineage older p).any (isMarked (node :: older)) = isCancelled older p := by
  rw [isCancelled, Bool.eq_iff_iff, List.any_eq_true, List.any_eq_true]
  refine exists_congr fun m => and_congr_right fun mem => ?_
  rw [isMarked_cons_of_lt (lineage_lt mem)]

theorem lineage_cons_self :
    lineage (node :: older) older.length =
      older.length :: node.parent.elim [] (lineage older) := by
  rw [lineage, if_pos rfl]
  cases node.parent <;> rfl

theorem isCancelled_cons_self :
    isCancelled (node :: older) older.length =
      (node.cancelled || node.parent.any (isCancelled older)) := by
  have own : isMarked (node :: older) older.length = node.cancelled := by
    rw [isMarked, if_pos rfl]
  rw [isCancelled, lineage_cons_self, List.any_cons, own]
  cases node.parent with
  | none => rfl
  | some p => simp [any_lineage_cons]

theorem isCancelled_cons_of_ne (h : n ≠ older.length) :
    isCancelled (node :: older) n = isCancelled older n := by
  rw [isCancelled, lineage, if_neg h, any_lineage_cons]

/-- Subscribing comes by the same nodes as asking, and gives up where asking finds one. -/
theorem subscribe_eq :
    subscribe nodes n = if isCancelled nodes n then none else some (lineage nodes n) := by
  induction nodes generalizing n with
  | nil => simp [subscribe, isCancelled, lineage]
  | cons node older ih =>
    by_cases here : n = older.length
    · subst here
      rw [isCancelled_cons_self]
      cases cancelled : node.cancelled with
      | true => simp [subscribe, cancelled]
      | false =>
        cases parent : node.parent with
        | none => simp [subscribe, cancelled, parent, lineage]
        | some p =>
          cases above : isCancelled older p <;>
            simp [subscribe, cancelled, parent, lineage, ih, above]
    · rw [isCancelled_cons_of_ne here, subscribe, if_neg here, ih, lineage, if_neg here]

@[simp] theorem length_mark : (mark n nodes).length = nodes.length := by
  induction nodes with
  | nil => rfl
  | cons node older ih =>
    simp only [mark]
    split <;> simp [ih]

@[simp] theorem lineage_mark : lineage (mark n nodes) m = lineage nodes m := by
  induction nodes generalizing m with
  | nil => rfl
  | cons node older ih =>
    simp only [mark]
    split
    next => rfl
    next => simp only [lineage, length_mark, ih]

/-- There is nothing to cancel at a number that no node has. -/
theorem mark_of_le (h : nodes.length ≤ n) : mark n nodes = nodes := by
  induction nodes with
  | nil => rfl
  | cons node older ih =>
    simp only [List.length_cons] at h
    rw [mark, if_neg (by omega), ih (by omega)]

theorem isMarked_mark (h : n < nodes.length) :
    isMarked (mark n nodes) m = (isMarked nodes m || m == n) := by
  induction nodes with
  | nil => simp at h
  | cons node older ih =>
    simp only [mark]
    split
    next here =>
      subst here
      simp only [isMarked]
      split
      next same => simp [same]
      next other => simp [other]
    next other =>
      simp only [List.length_cons] at h
      simp only [isMarked, length_mark]
      split
      next same => simp [same, Ne.symm other]
      next => exact ih (by omega)

/-- Cancelling a node reaches itself and the nodes below it. -/
theorem isCancelled_mark (h : n < nodes.length) :
    isCancelled (mark n nodes) m = (isCancelled nodes m || (lineage nodes m).contains n) := by
  rw [Bool.eq_iff_iff]
  simp only [isCancelled, lineage_mark, List.any_eq_true, isMarked_mark h, Bool.or_eq_true,
    beq_iff_eq, List.contains_eq_mem, decide_eq_true_eq]
  constructor
  · rintro ⟨k, mem, marked | rfl⟩
    · exact .inl ⟨k, mem, marked⟩
    · exact .inr mem
  · rintro (⟨k, mem, marked⟩ | mem)
    · exact ⟨k, mem, .inl marked⟩
    · exact ⟨n, mem, .inr rfl⟩

end CancelNodes

/-- Cancelling a token reaches itself and the tokens below it. -/
theorem CancelForest.isCancelled_cancel (f : CancelForest) (token other : Nat) :
    (f.cancel token).isCancelled other =
      (f.isCancelled other || (f.nodes.lineage (f.node other)).contains (f.node token)) := by
  show (f.nodes.mark (f.node token)).isCancelled (f.node other) = _
  by_cases inside : f.node token < f.nodes.length
  · exact CancelNodes.isCancelled_mark inside
  · have outside : (f.nodes.lineage (f.node other)).contains (f.node token) = false := by
      simp only [List.contains_eq_mem, decide_eq_false_iff_not]
      exact fun mem => inside (CancelNodes.lineage_lt mem)
    rw [CancelNodes.mark_of_le (by omega), outside, Bool.or_false]
    rfl

/-! ### Histories -/

namespace CancelOp

/-- Whether a token is made. -/
def makesToken : CancelOp → Bool
  | .new | .child _ | .clone _ => true
  | .cancel _ | .wait _ => false

/-- The token that is waited for. -/
def awaited? : CancelOp → Option Nat
  | .wait t => some t
  | _ => none

/-- Only tokens that are there are named. -/
def Refers (tokens : Nat) : CancelOp → Prop
  | .new => True
  | .child t | .clone t | .cancel t | .wait t => t < tokens

end CancelOp

/-- How the tokens were made, in their order. -/
def origins (ops : List CancelOp) : List CancelOp := ops.filter (·.makesToken)

/-- The tokens that have been waited for, in the order of those who wait. -/
def awaited (ops : List CancelOp) : List Nat := ops.filterMap (·.awaited?)

/-- Cancelling a token hits itself, its clones, and whatever has been made below one of them. -/
inductive Hits (made : List CancelOp) : Nat → Nat → Prop where
  | same {t : Nat} : Hits made t t
  | clone {s t p : Nat} (origin : made[s]? = some (.clone p)) (hits : Hits made p t) : Hits made s t
  | toClone {s t p : Nat} (origin : made[t]? = some (.clone p)) (hits : Hits made s p) :
      Hits made s t
  | toChild {s t p : Nat} (origin : made[t]? = some (.child p)) (hits : Hits made s p) :
      Hits made s t

/-- What a forest may have come to by a history. Those who wait may have a look at any moment. -/
inductive Reached : List CancelOp → CancelForest → Prop where
  | empty : Reached [] .empty
  | perform {ops : List CancelOp} {f : CancelForest} {o : CancelOp} (reached : Reached ops f)
      (refers : o.Refers f.tokens.length) : Reached (ops ++ [o]) (f.perform o)
  | poll {ops : List CancelOp} {f : CancelForest} (reached : Reached ops f) (waiter : Nat) :
      Reached ops (f.poll waiter)
  | settle {ops : List CancelOp} {f : CancelForest} (reached : Reached ops f) :
      Reached ops f.settle

/-- Nobody who waits has a look to take: all that can run has run. -/
def CancelForest.Quiet (f : CancelForest) : Prop := ∀ w ∈ f.waiters, w.ready = false

/-! ### Forests that keep to a history -/

/-- A waiter has been woken only by a cancellation; until then it is due for a look, or subscribed
to its node and all nodes above it while none of them is cancelled. -/
structure CancelWaiter.Sound (nodes : CancelNodes) (w : CancelWaiter) : Prop where
  inside : w.node < nodes.length
  woken : w.woken = true → nodes.isCancelled w.node = true
  asleep : w.ready = false → w.woken = false →
    nodes.isCancelled w.node = false ∧ w.subscriptions = nodes.lineage w.node

/-- The nodes and tokens are those of a history. -/
structure Rooted (ops : List CancelOp) (f : CancelForest) : Prop where
  count : f.tokens.length = (origins ops).length
  inside : ∀ t < f.tokens.length, f.node t < f.nodes.length
  clone : ∀ t p, (origins ops)[t]? = some (.clone p) → p < t ∧ f.node t = f.node p
  child : ∀ t p, (origins ops)[t]? = some (.child p) → p < t ∧ f.node p < f.node t ∧
    f.nodes.lineage (f.node t) = f.node t :: f.nodes.lineage (f.node p)
  root : ∀ t, (origins ops)[t]? = some .new → f.nodes.lineage (f.node t) = [f.node t]
  /-- Only clones share a node with an earlier token. -/
  founder : ∀ s t, s < t → t < f.tokens.length → f.node s = f.node t →
    ∃ p, (origins ops)[t]? = some (.clone p)
  cancels : ∀ s, .cancel s ∈ ops → s < f.tokens.length
  marked : ∀ n, f.nodes.isMarked n = true ↔ ∃ s, .cancel s ∈ ops ∧ f.node s = n

section Steps

variable {ops : List CancelOp} {f : CancelForest}

theorem node_concat_lt {tokens : List Nat} {x t : Nat} (h : t < f.tokens.length)
    (same : tokens = f.tokens ++ [x]) : tokens.getD t 0 = f.node t := by
  subst same
  simp [CancelForest.node, List.getElem?_append_left h]

theorem origins_concat {o : CancelOp} (makes : o.makesToken = true) :
    origins (ops ++ [o]) = origins ops ++ [o] := by
  simp [origins, makes]

theorem origins_concat_of_not {o : CancelOp} (makes : o.makesToken = false) :
    origins (ops ++ [o]) = origins ops := by
  simp [origins, makes]

/-- A token is an old one with its old origin, or the one just made. -/
theorem origin_concat_cases {o o' : CancelOp} {t : Nat} (makes : o.makesToken = true)
    (origin : (origins (ops ++ [o]))[t]? = some o') :
    t < (origins ops).length ∧ (origins ops)[t]? = some o' ∨
      t = (origins ops).length ∧ o' = o := by
  rw [origins_concat makes, List.getElem?_append] at origin
  split at origin
  next here => exact .inl ⟨here, origin⟩
  next there =>
    rw [List.getElem?_singleton] at origin
    split at origin
    next first => exact .inr ⟨by omega, (Option.some.inj origin).symm⟩
    next => cases origin

theorem cancel_mem_concat {o : CancelOp} {s : Nat} (makes : o.makesToken = true) :
    .cancel s ∈ ops ++ [o] ↔ .cancel s ∈ ops := by
  refine ⟨fun mem => ?_, List.mem_append_left _⟩
  rcases List.mem_append.mp mem with mem | mem
  · exact mem
  · rw [← List.mem_singleton.mp mem] at makes
    cases makes

/-- A token is made with the node `x`, and nothing else changes in the forest. -/
theorem Rooted.make {o : CancelOp} {nodes : CancelNodes} {x : Nat}
    {waiters : List CancelWaiter} (rooted : Rooted ops f) (makes : o.makesToken = true)
    (longer : f.nodes.length ≤ nodes.length)
    (kept : ∀ n < f.nodes.length, nodes.lineage n = f.nodes.lineage n)
    (marks : ∀ n, nodes.isMarked n = f.nodes.isMarked n) (inside : x < nodes.length)
    (clone : ∀ p, o = .clone p → p < f.tokens.length ∧ x = f.node p)
    (child : ∀ p, o = .child p → p < f.tokens.length ∧ f.node p < x ∧
      nodes.lineage x = x :: f.nodes.lineage (f.node p))
    (root : o = .new → nodes.lineage x = [x])
    (founder : (∃ p, o = .clone p) ∨ f.nodes.length ≤ x) :
    Rooted (ops ++ [o]) ⟨nodes, f.tokens ++ [x], waiters⟩ := by
  have old : ∀ t < f.tokens.length,
      CancelForest.node ⟨nodes, f.tokens ++ [x], waiters⟩ t = f.node t :=
    fun t h => node_concat_lt h rfl
  have last : CancelForest.node ⟨nodes, f.tokens ++ [x], waiters⟩ f.tokens.length = x := by
    simp [CancelForest.node]
  have split (t : Nat) (o' : CancelOp) (origin : (origins (ops ++ [o]))[t]? = some o') :
      t < f.tokens.length ∧ (origins ops)[t]? = some o' ∨ t = f.tokens.length ∧ o' = o :=
    rooted.count ▸ origin_concat_cases makes origin
  constructor
  case count => simp [origins_concat makes, rooted.count]
  case inside =>
    intro t h
    simp only [List.length_append, List.length_singleton] at h
    by_cases new : t = f.tokens.length
    · rw [new, last]
      exact inside
    · rw [old t (by omega)]
      exact Nat.lt_of_lt_of_le (rooted.inside t (by omega)) longer
  case clone =>
    intro t p h
    obtain ⟨before, h⟩ | ⟨rfl, same⟩ := split t _ h
    · obtain ⟨earlier, shared⟩ := rooted.clone t p h
      exact ⟨earlier, by rw [old t before, old p (by omega), shared]⟩
    · obtain ⟨earlier, shared⟩ := clone p same.symm
      exact ⟨earlier, by rw [last, old p earlier, shared]⟩
  case child =>
    intro t p h
    obtain ⟨before, h⟩ | ⟨rfl, same⟩ := split t _ h
    · obtain ⟨earlier, below, walk⟩ := rooted.child t p h
      rw [old t before, old p (by omega)]
      refine ⟨earlier, below, ?_⟩
      rw [kept _ (rooted.inside t before), kept _ (rooted.inside p (by omega)), walk]
    · obtain ⟨earlier, below, walk⟩ := child p same.symm
      rw [last, old p earlier, kept _ (rooted.inside p earlier)]
      exact ⟨earlier, below, walk⟩
  case root =>
    intro t h
    obtain ⟨before, h⟩ | ⟨rfl, same⟩ := split t _ h
    · rw [old t before, kept _ (rooted.inside t before), rooted.root t h]
    · rw [last, root same.symm]
  case founder =>
    intro s t earlier h shared
    simp only [List.length_append, List.length_singleton] at h
    rw [old s (by omega)] at shared
    rw [origins_concat makes, List.getElem?_append, ← rooted.count]
    by_cases new : t = f.tokens.length
    · subst new
      rw [last] at shared
      obtain ⟨p, rfl⟩ | fresh := founder
      · exact ⟨p, by simp⟩
      · have := rooted.inside s earlier
        omega
    · rw [old t (by omega)] at shared
      rw [if_pos (by omega)]
      exact rooted.founder s t earlier (by omega) shared
  case cancels =>
    intro s mem
    have := rooted.cancels s ((cancel_mem_concat makes).mp mem)
    simp only [List.length_append, List.length_singleton]
    omega
  case marked =>
    intro n
    rw [marks, rooted.marked]
    refine exists_congr fun s => ?_
    rw [cancel_mem_concat makes]
    exact and_congr_right fun mem => by rw [old s (rooted.cancels s mem)]

theorem Rooted.keep {o : CancelOp} {nodes : CancelNodes} {waiters : List CancelWaiter}
    (rooted : Rooted ops f) (makes : o.makesToken = false)
    (length : nodes.length = f.nodes.length) (kept : ∀ n, nodes.lineage n = f.nodes.lineage n)
    (cancels : ∀ s, .cancel s = o → s < f.tokens.length)
    (marks : ∀ n, nodes.isMarked n = true ↔
      f.nodes.isMarked n = true ∨ ∃ s, o = .cancel s ∧ f.node s = n) :
    Rooted (ops ++ [o]) ⟨nodes, f.tokens, waiters⟩ := by
  have same : origins (ops ++ [o]) = origins ops := origins_concat_of_not makes
  refine ⟨?_, ?_, ?_, ?_, ?_, ?_, ?_, ?_⟩
  · rw [same]
    exact rooted.count
  · rw [length]
    exact rooted.inside
  · rw [same]
    exact rooted.clone
  · rw [same]
    simp only [kept]
    exact rooted.child
  · rw [same]
    simp only [kept]
    exact rooted.root
  · rw [same]
    exact rooted.founder
  · intro s mem
    rcases List.mem_append.mp mem with mem | mem
    · exact rooted.cancels s mem
    · exact cancels s (List.mem_singleton.mp mem)
  · intro n
    rw [marks, rooted.marked]
    constructor
    · rintro (⟨s, mem, at_⟩ | ⟨s, rfl, at_⟩)
      · exact ⟨s, List.mem_append_left _ mem, at_⟩
      · exact ⟨s, by simp, at_⟩
    · rintro ⟨s, mem, at_⟩
      rcases List.mem_append.mp mem with mem | mem
      · exact .inl ⟨s, mem, at_⟩
      · exact .inr ⟨s, (List.mem_singleton.mp mem).symm, at_⟩

theorem Rooted.perform {o : CancelOp} (rooted : Rooted ops f) (refers : o.Refers f.tokens.length) :
    Rooted (ops ++ [o]) (f.perform o) := by
  cases o with
  | new =>
    exact rooted.make rfl (by simp) (fun n h => CancelNodes.lineage_cons_of_lt h)
      (fun n => CancelNodes.isMarked_new none) (by simp) (by simp) (by simp)
      (fun _ => CancelNodes.lineage_cons_self) (.inr (Nat.le_refl _))
  | child p =>
    exact rooted.make rfl (by simp) (fun n h => CancelNodes.lineage_cons_of_lt h)
      (fun n => CancelNodes.isMarked_new _) (by simp) (by simp)
      (fun q same => by
        cases same
        exact ⟨refers, rooted.inside p refers, CancelNodes.lineage_cons_self⟩)
      (by simp) (.inr (Nat.le_refl _))
  | clone p =>
    exact rooted.make rfl (Nat.le_refl _) (fun _ _ => rfl) (fun _ => rfl) (rooted.inside p refers)
      (fun q same => by cases same; exact ⟨refers, rfl⟩) (by simp) (by simp) (.inl ⟨p, rfl⟩)
  | cancel s =>
    have inside := rooted.inside s refers
    refine rooted.keep rfl CancelNodes.length_mark (fun n => CancelNodes.lineage_mark)
      (fun t same => by cases same; exact refers) fun n => ?_
    rw [CancelNodes.isMarked_mark inside, Bool.or_eq_true, beq_iff_eq]
    exact or_congr_right
      ⟨fun same => ⟨s, rfl, same.symm⟩, fun ⟨_, same, at_⟩ => by cases same; exact at_.symm⟩
  | wait t =>
    exact rooted.keep rfl rfl (fun _ => rfl) (by simp) (by simp)

/-! ### The walk finds whatever hits -/

theorem Rooted.lt_of_origin {t : Nat} {o : CancelOp} (rooted : Rooted ops f)
    (origin : (origins ops)[t]? = some o) : t < f.tokens.length := by
  rw [rooted.count]
  exact (List.getElem?_eq_some_iff.mp origin).1

theorem Rooted.mem_lineage_of_hits {s t : Nat} (rooted : Rooted ops f)
    (hits : Hits (origins ops) s t) (inside : t < f.tokens.length) :
    s < f.tokens.length ∧ f.node s ∈ f.nodes.lineage (f.node t) := by
  induction hits with
  | same => exact ⟨inside, CancelNodes.self_mem_lineage (rooted.inside _ inside)⟩
  | clone origin _ ih =>
    rw [(rooted.clone _ _ origin).2]
    exact ⟨rooted.lt_of_origin origin, (ih inside).2⟩
  | toClone origin _ ih =>
    obtain ⟨earlier, shared⟩ := rooted.clone _ _ origin
    rw [shared]
    exact ih (by omega)
  | toChild origin _ ih =>
    obtain ⟨earlier, -, walk⟩ := rooted.child _ _ origin
    obtain ⟨there, mem⟩ := ih (by omega)
    rw [walk]
    exact ⟨there, List.mem_cons_of_mem _ mem⟩

/-- Only clones share a node, and they hit each other. -/
theorem Rooted.hits_of_node_eq {s t : Nat} (rooted : Rooted ops f) (inside : s < f.tokens.length)
    (inside' : t < f.tokens.length) (shared : f.node s = f.node t) : Hits (origins ops) s t := by
  induction both : s + t using Nat.strongRecOn generalizing s t with
  | ind n ih =>
    subst both
    rcases Nat.lt_trichotomy s t with earlier | rfl | later
    · obtain ⟨p, origin⟩ := rooted.founder s t earlier inside' shared
      obtain ⟨before, same⟩ := rooted.clone t p origin
      exact .toClone origin (ih _ (by omega) inside (by omega) (shared.trans same) rfl)
    · exact .same
    · obtain ⟨p, origin⟩ := rooted.founder t s later inside shared.symm
      obtain ⟨before, same⟩ := rooted.clone s p origin
      exact .clone origin (ih _ (by omega) (by omega) inside' (same.symm.trans shared) rfl)

theorem makesToken_of_mem_origins {o : CancelOp} (mem : o ∈ origins ops) :
    o.makesToken = true :=
  (List.mem_filter.mp mem).2

theorem Rooted.hits_of_mem_lineage {s t : Nat} (rooted : Rooted ops f)
    (inside : s < f.tokens.length) (inside' : t < f.tokens.length)
    (mem : f.node s ∈ f.nodes.lineage (f.node t)) : Hits (origins ops) s t := by
  induction t using Nat.strongRecOn with
  | ind t ih =>
    have there : t < (origins ops).length := rooted.count ▸ inside'
    have origin : (origins ops)[t]? = some (origins ops)[t] := List.getElem?_eq_getElem there
    have makes := makesToken_of_mem_origins (List.getElem_mem there)
    cases made : (origins ops)[t] with
    | new =>
      rw [made] at origin
      rw [rooted.root t origin] at mem
      exact rooted.hits_of_node_eq inside inside' (List.mem_singleton.mp mem)
    | child p =>
      rw [made] at origin
      obtain ⟨earlier, -, walk⟩ := rooted.child t p origin
      rw [walk] at mem
      rcases List.mem_cons.mp mem with shared | mem
      · exact rooted.hits_of_node_eq inside inside' shared
      · exact .toChild origin (ih p earlier (by omega) mem)
    | clone p =>
      rw [made] at origin
      obtain ⟨earlier, shared⟩ := rooted.clone t p origin
      rw [shared] at mem
      exact .toClone origin (ih p earlier (by omega) mem)
    | cancel | wait =>
      rw [made] at makes
      cases makes

/-- The history tells the walks: cancelling a token hits those on whose walks its node lies. -/
theorem Rooted.hits_iff {s t : Nat} (rooted : Rooted ops f) (inside : t < f.tokens.length) :
    Hits (origins ops) s t ↔
      s < f.tokens.length ∧ f.node s ∈ f.nodes.lineage (f.node t) :=
  ⟨fun hits => rooted.mem_lineage_of_hits hits inside,
    fun ⟨inside', mem⟩ => rooted.hits_of_mem_lineage inside' inside mem⟩

/-- A token is cancelled exactly if an earlier cancellation hits it. -/
theorem Rooted.isCancelled_iff {t : Nat} (rooted : Rooted ops f) (inside : t < f.tokens.length) :
    f.isCancelled t = true ↔ ∃ s, .cancel s ∈ ops ∧ Hits (origins ops) s t := by
  simp only [CancelForest.isCancelled, CancelNodes.isCancelled, List.any_eq_true, rooted.marked,
    rooted.hits_iff inside]
  constructor
  · rintro ⟨_, mem, s, cancelled, rfl⟩
    exact ⟨s, cancelled, rooted.cancels s cancelled, mem⟩
  · rintro ⟨s, cancelled, _, mem⟩
    exact ⟨_, mem, s, cancelled, rfl⟩

end Steps

/-! ### Those who wait -/

namespace CancelWaiter

variable {nodes : CancelNodes} {w : CancelWaiter} {n : Nat}

theorem Sound.poll (sound : w.Sound nodes) : (w.poll nodes).Sound nodes := by
  unfold CancelWaiter.poll
  split
  next due =>
    rw [CancelNodes.subscribe_eq]
    cases cancelled : nodes.isCancelled w.node with
    | true => exact ⟨sound.inside, fun _ => cancelled, by simp⟩
    | false => exact ⟨sound.inside, sound.woken, fun _ _ => ⟨cancelled, rfl⟩⟩
  next => exact sound

theorem poll_ready : (w.poll nodes).ready = false := by
  unfold CancelWaiter.poll
  split
  next => split <;> rfl
  next idle => simpa using idle

theorem poll_node : (w.poll nodes).node = w.node := by
  unfold CancelWaiter.poll
  split
  next => split <;> rfl
  next => rfl

/-- A new node is of no concern to whoever waits already. -/
theorem Sound.grow {node : CancelNode} (sound : w.Sound nodes) : w.Sound (node :: nodes) := by
  have other := Nat.ne_of_lt sound.inside
  refine ⟨Nat.lt_succ_of_lt sound.inside, ?_, ?_⟩
  · rw [CancelNodes.isCancelled_cons_of_ne other]
    exact sound.woken
  · rw [CancelNodes.isCancelled_cons_of_ne other, CancelNodes.lineage_cons_of_lt sound.inside]
    exact sound.asleep

/-- No cancellation goes by whoever has subscribed. -/
theorem Sound.notice (sound : w.Sound nodes) (inside : n < nodes.length) :
    (w.notice n).Sound (nodes.mark n) := by
  unfold CancelWaiter.notice
  split
  next subscribed =>
    refine ⟨by simpa using sound.inside, fun woken => ?_, by simp⟩
    simp [CancelNodes.isCancelled_mark inside, sound.woken woken]
  next elsewhere =>
    refine ⟨by simpa using sound.inside, fun woken => ?_, fun idle asleep => ?_⟩
    · simp [CancelNodes.isCancelled_mark inside, sound.woken woken]
    · obtain ⟨calm, subscriptions⟩ := sound.asleep idle asleep
      rw [subscriptions] at elsewhere
      rw [CancelNodes.isCancelled_mark inside, CancelNodes.lineage_mark, calm]
      exact ⟨by simpa using elsewhere, subscriptions⟩

theorem notice_node : (w.notice n).node = w.node := by
  unfold CancelWaiter.notice
  split <;> rfl

/-- Whoever has no look to take has been woken exactly if its node is cancelled. -/
theorem Sound.woken_iff (sound : w.Sound nodes) (idle : w.ready = false) :
    w.woken = true ↔ nodes.isCancelled w.node = true := by
  refine ⟨sound.woken, fun cancelled => ?_⟩
  cases asleep : w.woken with
  | true => rfl
  | false => rw [(sound.asleep idle asleep).1] at cancelled; cases cancelled

end CancelWaiter

section Histories

variable {ops : List CancelOp} {f : CancelForest}

/-- Those who wait are those of a history, and none of them has missed a cancellation. -/
structure Attended (ops : List CancelOp) (f : CancelForest) : Prop where
  sound : ∀ w ∈ f.waiters, w.Sound f.nodes
  places : f.waiters.map (·.node) = (awaited ops).map f.node
  inside : ∀ t ∈ awaited ops, t < f.tokens.length

theorem awaited_concat {o : CancelOp} :
    awaited (ops ++ [o]) = awaited ops ++ o.awaited?.toList := by
  cases h : o.awaited? <;> simp [awaited, h]

/-- Those who wait keep their places when a token is made. -/
theorem Attended.make {o : CancelOp} {nodes : CancelNodes} {x : Nat} (attended : Attended ops f)
    (nobody : o.awaited? = none) (sound : ∀ w ∈ f.waiters, w.Sound nodes) :
    Attended (ops ++ [o]) ⟨nodes, f.tokens ++ [x], f.waiters⟩ := by
  have same : awaited (ops ++ [o]) = awaited ops := by simp [awaited_concat, nobody]
  refine ⟨sound, ?_, fun t mem => ?_⟩
  · rw [same]
    refine attended.places.trans (List.map_congr_left fun t mem => ?_)
    exact (node_concat_lt (attended.inside t mem) rfl).symm
  · rw [same] at mem
    simpa using Nat.lt_succ_of_lt (attended.inside t mem)

theorem Attended.perform {o : CancelOp} (attended : Attended ops f) (rooted : Rooted ops f)
    (refers : o.Refers f.tokens.length) : Attended (ops ++ [o]) (f.perform o) := by
  cases o with
  | new => exact attended.make rfl fun w mem => (attended.sound w mem).grow
  | child p => exact attended.make rfl fun w mem => (attended.sound w mem).grow
  | clone p => exact attended.make rfl attended.sound
  | cancel s =>
    have same : awaited (ops ++ [.cancel s]) = awaited ops := by
      simp [awaited_concat, CancelOp.awaited?]
    refine ⟨fun w mem => ?_, ?_, ?_⟩
    · obtain ⟨v, there, rfl⟩ := List.mem_map.mp mem
      exact (attended.sound v there).notice (rooted.inside s refers)
    · rw [same]
      refine Eq.trans ?_ attended.places
      simp [CancelForest.perform, CancelForest.cancel, CancelWaiter.notice_node]
    · rw [same]
      exact attended.inside
  | wait t =>
    refine ⟨fun w mem => ?_, ?_, fun t' mem => ?_⟩
    · rcases List.mem_append.mp mem with mem | mem
      · exact attended.sound w mem
      · obtain rfl := List.mem_singleton.mp mem
        exact ⟨rooted.inside t refers, by simp, by simp⟩
    · simp only [CancelForest.perform, List.map_append, attended.places, awaited_concat,
        CancelOp.awaited?]
      rfl
    · rw [awaited_concat] at mem
      rcases List.mem_append.mp mem with mem | mem
      · exact attended.inside t' mem
      · obtain rfl : t' = t := by simpa [CancelOp.awaited?] using mem
        exact refers

theorem Reached.rooted_attended (reached : Reached ops f) : Rooted ops f ∧ Attended ops f := by
  induction reached with
  | empty =>
    refine ⟨⟨rfl, ?_, ?_, ?_, ?_, ?_, ?_, ?_⟩, ⟨?_, rfl, ?_⟩⟩ <;>
      simp [origins, awaited, CancelForest.empty, CancelNodes.isMarked]
  | perform _ refers ih => exact ⟨ih.1.perform refers, ih.2.perform ih.1 refers⟩
  | @poll ops f _ waiter ih =>
    obtain ⟨rooted, attended⟩ := ih
    refine ⟨⟨rooted.count, rooted.inside, rooted.clone, rooted.child, rooted.root, rooted.founder,
      rooted.cancels, rooted.marked⟩, ⟨fun w mem => ?_, ?_, attended.inside⟩⟩
    · obtain ⟨i, inside, rfl⟩ := List.mem_iff_getElem.mp mem
      simp only [CancelForest.poll, List.getElem_modify]
      have sound := attended.sound _ (List.getElem_mem (by simpa [CancelForest.poll] using inside))
      split
      next => exact sound.poll
      next => exact sound
    · refine Eq.trans (List.ext_getElem (by simp [CancelForest.poll]) fun i inside inside' => ?_)
        attended.places
      simp only [CancelForest.poll, List.getElem_map, List.getElem_modify]
      split
      next => exact CancelWaiter.poll_node
      next => rfl
  | @settle ops f _ ih =>
    obtain ⟨rooted, attended⟩ := ih
    refine ⟨⟨rooted.count, rooted.inside, rooted.clone, rooted.child, rooted.root, rooted.founder,
      rooted.cancels, rooted.marked⟩, ⟨fun w mem => ?_, ?_, attended.inside⟩⟩
    · obtain ⟨v, there, rfl⟩ := List.mem_map.mp mem
      exact (attended.sound v there).poll
    · refine Eq.trans ?_ attended.places
      simp [CancelForest.settle, CancelWaiter.poll_node]

theorem quiet_settle (f : CancelForest) : f.settle.Quiet := by
  intro w mem
  obtain ⟨v, -, rfl⟩ := List.mem_map.mp mem
  exact CancelWaiter.poll_ready

/-- What is done with a token changes nothing for those that it does not hit. -/
theorem Rooted.isCancelled_perform {o : CancelOp} {t : Nat} (rooted : Rooted ops f)
    (refers : o.Refers f.tokens.length) (inside : t < f.tokens.length) :
    (f.perform o).isCancelled t = true ↔
      f.isCancelled t = true ∨ ∃ s, o = .cancel s ∧ Hits (origins ops) s t := by
  have other := Nat.ne_of_lt (rooted.inside t inside)
  cases o with
  | new | child =>
    simp only [CancelForest.isCancelled, CancelForest.perform, CancelForest.grow,
      CancelForest.node, reduceCtorEq, false_and, exists_false, or_false]
    rw [node_concat_lt inside rfl, CancelNodes.isCancelled_cons_of_ne other]
    rfl
  | clone =>
    simp only [CancelForest.isCancelled, CancelForest.perform, CancelForest.node, reduceCtorEq,
      false_and, exists_false, or_false]
    rw [node_concat_lt inside rfl]
    rfl
  | wait => simp [CancelForest.isCancelled, CancelForest.perform, CancelForest.node]
  | cancel s =>
    have hit : Hits (origins ops) s t ↔ f.node s ∈ f.nodes.lineage (f.node t) := by
      rw [rooted.hits_iff inside]
      exact and_iff_right refers
    have step : (f.perform (.cancel s)).isCancelled t =
        (f.isCancelled t || (f.nodes.lineage (f.node t)).contains (f.node s)) :=
      CancelNodes.isCancelled_mark (rooted.inside s refers)
    rw [step, Bool.or_eq_true, List.contains_iff_mem, ← hit]
    refine or_congr_right ⟨fun hits => ⟨s, rfl, hits⟩, ?_⟩
    rintro ⟨_, same, hits⟩
    cases same
    exact hits

/-- A token that was made below another one hits neither that one nor whatever stands above it. -/
theorem Rooted.not_hits_above {c p a : Nat} (rooted : Rooted ops f)
    (made : (origins ops)[c]? = some (.child p)) (above : Hits (origins ops) a p) :
    ¬ Hits (origins ops) c a := by
  intro hits
  have inside := rooted.lt_of_origin made
  obtain ⟨earlier, below, -⟩ := rooted.child c p made
  obtain ⟨there, mem⟩ := rooted.mem_lineage_of_hits above (by omega)
  have low := CancelNodes.lineage_le mem
  have high := CancelNodes.lineage_le (rooted.mem_lineage_of_hits hits there).2
  omega

/-- Tokens that were made below the same node do not hit each other. -/
theorem Rooted.not_hits_sibling {c p c' p' : Nat} (rooted : Rooted ops f)
    (made : (origins ops)[c]? = some (.child p)) (made' : (origins ops)[c']? = some (.child p'))
    (same : Hits (origins ops) p' p) (other : c ≠ c') : ¬ Hits (origins ops) c c' := by
  intro hits
  have inside := rooted.lt_of_origin made
  have inside' := rooted.lt_of_origin made'
  obtain ⟨earlier, below, -⟩ := rooted.child c p made
  obtain ⟨-, -, walk⟩ := rooted.child c' p' made'
  have low := CancelNodes.lineage_le (rooted.mem_lineage_of_hits same (by omega)).2
  have mem := (rooted.mem_lineage_of_hits hits inside').2
  rw [walk] at mem
  rcases List.mem_cons.mp mem with shared | mem
  · -- tokens that share a node are clones, and these two are not
    rcases Nat.lt_or_gt_of_ne other with earlier | later
    · obtain ⟨q, clone⟩ := rooted.founder c c' earlier inside' shared
      rw [made'] at clone
      cases clone
    · obtain ⟨q, clone⟩ := rooted.founder c' c later inside shared.symm
      rw [made] at clone
      cases clone
  · have high := CancelNodes.lineage_le mem
    omega

theorem Attended.sound_at {i t : Nat} {w : CancelWaiter} (attended : Attended ops f)
    (waits : (awaited ops)[i]? = some t) (is : f.waiters[i]? = some w) :
    w.Sound f.nodes ∧ w.node = f.node t := by
  refine ⟨attended.sound w (List.mem_of_getElem? is), ?_⟩
  have place := congrArg (·[i]?) attended.places
  simpa [waits, is] using place

/-- Whatever has been done with tokens: a token is cancelled exactly if an earlier cancellation hit
it, its clone or a token above it. So nothing that is done takes a cancellation back, and a
cancellation changes nothing above the token or beside it. Whoever has been woken waits for a
cancelled token; and when all that can run has run, which it always can, whoever waits for a
cancelled token has been woken. -/
theorem cancellation_keeps_to_the_history (reached : Reached ops f) :
    f.tokens.length = (origins ops).length ∧ f.waiters.length = (awaited ops).length ∧
    (∀ t < f.tokens.length,
      f.isCancelled t = true ↔ ∃ s, .cancel s ∈ ops ∧ Hits (origins ops) s t) ∧
    (∀ o, o.Refers f.tokens.length → ∀ t < f.tokens.length,
      (f.perform o).isCancelled t = true ↔
        f.isCancelled t = true ∨ ∃ s, o = .cancel s ∧ Hits (origins ops) s t) ∧
    (∀ c p, (origins ops)[c]? = some (.child p) →
      (∀ a, Hits (origins ops) a p → ¬ Hits (origins ops) c a) ∧
      ∀ c' p', (origins ops)[c']? = some (.child p') → Hits (origins ops) p' p → c ≠ c' →
        ¬ Hits (origins ops) c c') ∧
    (∀ (i t : Nat) (w : CancelWaiter), (awaited ops)[i]? = some t → f.waiters[i]? = some w →
      (w.woken = true → f.isCancelled t = true) ∧
      (f.Quiet → (w.woken = true ↔ f.isCancelled t = true))) ∧
    Reached ops f.settle ∧ f.settle.Quiet := by
  obtain ⟨rooted, attended⟩ := reached.rooted_attended
  refine ⟨rooted.count, ?_, fun t inside => rooted.isCancelled_iff inside,
    fun o refers t inside => rooted.isCancelled_perform refers inside,
    fun c p made => ⟨fun a above => rooted.not_hits_above made above,
      fun c' p' made' same other => rooted.not_hits_sibling made made' same other⟩,
    fun i t w waits is => ?_, reached.settle, quiet_settle f⟩
  · simpa using congrArg List.length attended.places
  · obtain ⟨sound, place⟩ := attended.sound_at waits is
    have same : f.isCancelled t = f.nodes.isCancelled w.node := by
      rw [CancelForest.isCancelled, place]
    rw [same]
    exact ⟨sound.woken, fun quiet => sound.woken_iff (quiet w (List.mem_of_getElem? is))⟩

end Histories

namespace Grove

/-- A token with a grandchild that somebody waits for, a clone of the child between them, and
another child; then the clone is cancelled. -/
def ops : List CancelOp :=
  [.new, .child 0, .child 1, .wait 2, .clone 1, .child 0, .cancel 3]

def forest : CancelForest := ops.foldl .perform .empty

theorem reached : Reached ops forest := by
  have root : Reached [.new] (CancelForest.empty.perform .new) := .perform .empty trivial
  have child := root.perform (o := .child 0) (by decide : 0 < 1)
  have grandchild := child.perform (o := .child 1) (by decide : 1 < 2)
  have waiting := grandchild.perform (o := .wait 2) (by decide : 2 < 3)
  have clone := waiting.perform (o := .clone 1) (by decide : 1 < 3)
  have sibling := clone.perform (o := .child 0) (by decide : 0 < 4)
  exact sibling.perform (o := .cancel 3) (by decide : 3 < 5)

theorem waiter_is_woken :
    Hits (origins ops) 3 2 ∧ forest.isCancelled 2 = true ∧ ¬ Hits (origins ops) 1 0 ∧
      ¬ Hits (origins ops) 1 4 ∧ ∀ w, forest.settle.waiters[0]? = some w → w.woken = true := by
  obtain ⟨-, -, cancelled, -, aside, -, settled, quiet⟩ := cancellation_keeps_to_the_history reached
  have clone : (origins ops)[3]? = some (.clone 1) := by decide
  have grandchild : (origins ops)[2]? = some (.child 1) := by decide
  have child : (origins ops)[1]? = some (.child 0) := by decide
  have sibling : (origins ops)[4]? = some (.child 0) := by decide
  have hits : Hits (origins ops) 3 2 := .clone clone (.toChild grandchild .same)
  have known : forest.isCancelled 2 = true := (cancelled 2 (by decide)).mpr ⟨3, by decide, hits⟩
  refine ⟨hits, known, (aside 1 0 child).1 0 .same,
    (aside 1 0 child).2 4 0 sibling .same (by decide), fun w is => ?_⟩
  obtain ⟨-, -, -, -, -, woken, -⟩ := cancellation_keeps_to_the_history settled
  exact ((woken 0 2 w (by decide) is).2 quiet).mpr known

end Grove

end PipelineRunner
