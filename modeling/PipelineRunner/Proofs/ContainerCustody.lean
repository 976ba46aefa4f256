import PipelineRunner.Container.Lease
import PipelineRunner.Proofs.ClientDialogues
import PipelineRunner.Proofs.Scheduling

/-! Custody of containers. Whoever has had a container created is to see to its removal: at once if
it does not start, and otherwise when it is given back. Any number of tenants come and go beside
each other, and their calls may come to anything. -/

namespace PipelineRunner

open Host ContainerClient

variable {c : ContainerClient} {image : String} {said more : List Exchange}

/-! ### Acquisitions, and what they leave behind -/

namespace ContainerClient

/-- An image is fetched, and a container is started from it. -/
def acquiring (c : ContainerClient) (image : String) : Dialogue (Except Cause String) :=
  (fetching (Image.normalize image)).bind fun
    | .error cause => .done (.error cause)
    | .ok () => c.starting (Image.normalize image)

/-- The container that a call has created and named. -/
def created? (c : ContainerClient) (x : Exchange) : Option String :=
  match x.arguments.head?, c.answer x with
  | some "create", .ok id => if id.isEmpty then none else some id
  | _, _ => none

end ContainerClient

/-- The container that a call is to remove. -/
def Exchange.removed? (x : Exchange) : Option String :=
  match x.arguments with
  | ["rm", "-f", container] => some container
  | _ => none

theorem Exchange.removed?_eq_some {x : Exchange} {container : String} :
    x.removed? = some container ↔ x.arguments = toRemove container := by
  unfold removed?
  split
  next same => simp [same, toRemove]
  next other =>
    refine ⟨fun h => (nomatch h), fun same => ?_⟩
    exact absurd same (other container)

/-- Calls that remove a container are told by what they remove. -/
theorem Exchange.count_removed (said : List Exchange) (id : String) :
    (said.filterMap removed?).count id = said.countP fun x => x.arguments = toRemove id := by
  rw [List.count_filterMap]
  refine List.countP_congr fun x _ => ?_
  simp [removed?_eq_some]

/-- Somebody who wants a container. -/
inductive Tenant where
  | acquiring (left : Dialogue (Except Cause String))
  | holding (container : String)
  | releasing (container : String) (left : Dialogue (Except Cause Unit))
  /-- The container has not come about. -/
  | refused (cause : Cause)
  /-- The container has been given back. -/
  | released (container : String) (answer : Except Cause Unit)

namespace Tenant

/-- Where an acquisition leaves somebody. -/
def ofAnswer : Except Cause String → Tenant
  | .ok container => holding container
  | .error cause => refused cause

/-- Whether nothing is left to be done. -/
def isOver : Tenant → Bool
  | refused _ | released .. => true
  | _ => false

/-- The lease that somebody has been given. -/
def lease? : Tenant → Option Lease
  | holding container => some ⟨some container⟩
  | releasing .. | released .. => some ⟨none⟩
  | acquiring _ | refused _ => none

/-- What the acquisition has come to, if it is through. -/
def answer? : Tenant → Option (Except Cause String)
  | acquiring _ => none
  | refused cause => some (.error cause)
  | holding container | releasing container _ | released container _ => some (.ok container)

@[simp]
theorem answer?_ofAnswer (answer : Except Cause String) :
    (ofAnswer answer).answer? = some answer := by
  cases answer <;> rfl

/-- What somebody does next, and the calls that this takes. -/
inductive Moves (c : ContainerClient) : Tenant → List Exchange → Tenant → Prop where
  | ask {arguments : List String} {next : Except Cause String → Dialogue (Except Cause String)}
      (outcome : Except StartError Finished) :
      Moves c (acquiring (.ask arguments next)) [⟨arguments, outcome⟩]
        (acquiring (next (c.answer ⟨arguments, outcome⟩)))
  | acquire {answer : Except Cause String} : Moves c (acquiring (.done answer)) [] (ofAnswer answer)
  | release {container : String} :
      Moves c (holding container) [] (releasing container (stopping container))
  | askBack {container : String} {arguments : List String}
      {next : Except Cause String → Dialogue (Except Cause Unit)}
      (outcome : Except StartError Finished) :
      Moves c (releasing container (.ask arguments next)) [⟨arguments, outcome⟩]
        (releasing container (next (c.answer ⟨arguments, outcome⟩)))
  | leave {container : String} {answer : Except Cause Unit} :
      Moves c (releasing container (.done answer)) [] (released container answer)

/-- What somebody does at a stretch. -/
inductive Goes (c : ContainerClient) : Tenant → List Exchange → Tenant → Prop where
  | here {t : Tenant} : Goes c t [] t
  | move {t t' t'' : Tenant} {said more : List Exchange} (moves : t.Moves c said t')
      (goesOn : Goes c t' more t'') : Goes c t (said ++ more) t''

theorem Goes.acquiring {d e : Dialogue (Except Cause String)} {t : Tenant}
    (leads : d.Leads c said e) (goesOn : Goes c (.acquiring e) more t) :
    Goes c (.acquiring d) (said ++ more) t := by
  induction leads with
  | here => exact goesOn
  | ask outcome _ ih => exact (Goes.move (.ask outcome) (ih goesOn) :)

theorem Goes.releasing {container : String} {d e : Dialogue (Except Cause Unit)} {t : Tenant}
    (leads : d.Leads c said e) (goesOn : Goes c (.releasing container e) more t) :
    Goes c (.releasing container d) (said ++ more) t := by
  induction leads with
  | here => exact goesOn
  | ask outcome _ ih => exact (Goes.move (.askBack outcome) (ih goesOn) :)

/-- The calls by which somebody who wants a container from an image has come to this. -/
def Lived (c : ContainerClient) (image : String) (said : List Exchange) : Tenant → Prop
  | acquiring left => (c.acquiring image).Leads c said left
  | holding container => (c.acquiring image).Leads c said (.done (.ok container))
  | releasing container left => ∃ before after, said = before ++ after ∧
      (c.acquiring image).Leads c before (.done (.ok container)) ∧
      (stopping container).Leads c after left
  | refused cause => (c.acquiring image).Leads c said (.done (.error cause))
  | released container answer => ∃ before after, said = before ++ after ∧
      (c.acquiring image).Leads c before (.done (.ok container)) ∧
      (stopping container).Leads c after (.done answer)

variable {t t' : Tenant}

theorem Lived.moves (lived : t.Lived c image said) (moves : t.Moves c more t') :
    t'.Lived c image (said ++ more) := by
  cases moves with
  | ask outcome => exact lived.snoc outcome
  | @acquire answer =>
    rw [List.append_nil]
    cases answer with
    | ok container | error cause => exact lived
  | leave => rwa [List.append_nil]
  | release => exact ⟨said, [], rfl, lived, .here⟩
  | askBack outcome =>
    obtain ⟨before, after, rfl, acquired, leads⟩ := lived
    exact ⟨before, after ++ [_], List.append_assoc .., acquired, leads.snoc outcome⟩

/-- These calls have created a container from an image and started it. -/
inductive Acquired (c : ContainerClient) (image id : String) : List Exchange → Prop where
  | intro {pulled created started : Except StartError Finished} {text echo : String}
      (fetched : c.answer ⟨toPull image, pulled⟩ = .ok text)
      (named : c.answer ⟨toCreate image, created⟩ = .ok id) (nonempty : id ≠ "")
      (runs : c.answer ⟨toStart id, started⟩ = .ok echo) :
      Acquired c image id
        [⟨toPull image, pulled⟩, ⟨toCreate image, created⟩, ⟨toStart id, started⟩]

/-- What comes of the wish for a container from an image, and the calls that are made for it. The
error of a failing start is the one that is told, whatever the removal behind it comes to; and a
stop that fails does not keep the removal from being made. -/
inductive Story (c : ContainerClient) (image : String) : List Exchange → Tenant → Prop where
  | unfetched {pulled : Except StartError Finished} {cause : Cause}
      (fails : c.answer ⟨toPull image, pulled⟩ = .error cause) :
      Story c image [⟨toPull image, pulled⟩] (refused cause)
  | uncreated {pulled created : Except StartError Finished} {text : String} {cause : Cause}
      (fetched : c.answer ⟨toPull image, pulled⟩ = .ok text)
      (fails : c.answer ⟨toCreate image, created⟩ = .error cause) :
      Story c image [⟨toPull image, pulled⟩, ⟨toCreate image, created⟩] (refused cause)
  | unnamed {pulled created : Except StartError Finished} {text : String}
      (fetched : c.answer ⟨toPull image, pulled⟩ = .ok text)
      (empty : c.answer ⟨toCreate image, created⟩ = .ok "") :
      Story c image [⟨toPull image, pulled⟩, ⟨toCreate image, created⟩]
        (refused (.because s!"{c.binary} create returned no container id"))
  | unstarted {pulled created started removed : Except StartError Finished} {text id : String}
      {cause : Cause} (fetched : c.answer ⟨toPull image, pulled⟩ = .ok text)
      (named : c.answer ⟨toCreate image, created⟩ = .ok id) (nonempty : id ≠ "")
      (fails : c.answer ⟨toStart id, started⟩ = .error cause) :
      Story c image [⟨toPull image, pulled⟩, ⟨toCreate image, created⟩, ⟨toStart id, started⟩,
        ⟨toRemove id, removed⟩] (refused cause)
  | released {id : String} {before : List Exchange} {stopped removed : Except StartError Finished}
      (acquired : Acquired c image id before) :
      Story c image (before ++ [⟨toStop id, stopped⟩, ⟨toRemove id, removed⟩])
        (released id ((c.answer ⟨toStop id, stopped⟩).bind fun _ =>
          (c.answer ⟨toRemove id, removed⟩).map fun _ => ()))

/-- An acquisition that has come to its end has a container, or all that is left is an error. -/
theorem acquiring_ends {result : Except Cause String}
    (leads : (c.acquiring image).Leads c said (.done result)) :
    (∃ cause, result = .error cause ∧ Story c (Image.normalize image) said (refused cause)) ∨
      ∃ id, result = .ok id ∧ Acquired c (Image.normalize image) id said := by
  obtain ⟨pulled, said, rfl, behindPull⟩ := Dialogue.Leads.of_ask leads
  cases fetched : c.answer ⟨toPull (Image.normalize image), pulled⟩ with
  | error cause =>
    rw [fetched] at behindPull
    obtain ⟨rfl, rfl⟩ := behindPull.of_done
    exact .inl ⟨cause, rfl, .unfetched fetched⟩
  | ok text =>
    rw [fetched] at behindPull
    obtain ⟨created, said, rfl, behindCreate⟩ := Dialogue.Leads.of_ask behindPull
    cases named : c.answer ⟨toCreate (Image.normalize image), created⟩ with
    | error cause =>
      rw [named] at behindCreate
      obtain ⟨rfl, rfl⟩ := behindCreate.of_done
      exact .inl ⟨cause, rfl, .uncreated fetched named⟩
    | ok id =>
      rw [named] at behindCreate
      dsimp only at behindCreate
      split at behindCreate
      next empty =>
        obtain ⟨rfl, rfl⟩ := behindCreate.of_done
        obtain rfl := String.isEmpty_iff.mp empty
        exact .inl ⟨_, rfl, .unnamed fetched named⟩
      next full =>
        have nonempty : id ≠ "" := fun empty => full (String.isEmpty_iff.mpr empty)
        obtain ⟨started, said, rfl, behindStart⟩ := behindCreate.of_ask
        cases runs : c.answer ⟨toStart id, started⟩ with
        | error cause =>
          rw [runs] at behindStart
          obtain ⟨removed, said, rfl, behindRemove⟩ := Dialogue.Leads.of_ask behindStart
          obtain ⟨rfl, rfl⟩ := behindRemove.of_done
          exact .inl ⟨cause, rfl, .unstarted fetched named nonempty runs⟩
        | ok echo =>
          rw [runs] at behindStart
          obtain ⟨rfl, rfl⟩ := behindStart.of_done
          exact .inr ⟨id, rfl, .intro fetched named nonempty runs⟩

/-- A wish that nothing is left to be done for has such a story. -/
theorem Lived.story (lived : t.Lived c image said) (through : t.isOver = true) :
    t.Story c (Image.normalize image) said := by
  cases t with
  | acquiring | holding | releasing => cases through
  | refused cause =>
    obtain ⟨cause, same, story⟩ | ⟨id, same, -⟩ := acquiring_ends lived
    · cases same
      exact story
    · cases same
  | released container answer =>
    obtain ⟨before, after, rfl, leads, stops⟩ := lived
    obtain ⟨cause, same, -⟩ | ⟨id, same, acquired⟩ := acquiring_ends leads
    · cases same
    · cases same
      obtain ⟨stopped, after, rfl, behindStop⟩ := Dialogue.Leads.of_ask stops
      obtain ⟨removed, after, rfl, behindRemove⟩ := behindStop.of_ask
      obtain ⟨rfl, rfl⟩ := behindRemove.of_done
      exact .released acquired

/-- Whatever has been created in a story has been removed in it, and nothing else. -/
theorem Story.balanced (story : t.Story c image said) :
    said.filterMap Exchange.removed? = said.filterMap c.created? := by
  cases story with
  | unfetched fails => simp [Exchange.removed?, created?, toPull]
  | uncreated fetched fails =>
    rw [toCreate] at fails
    simp [Exchange.removed?, created?, toPull, toCreate, fails]
  | unnamed fetched empty =>
    rw [toCreate] at empty
    simp [Exchange.removed?, created?, toPull, toCreate, empty]
  | unstarted fetched named nonempty fails =>
    rw [toCreate] at named
    simp [Exchange.removed?, created?, toPull, toCreate, toStart, toRemove, named, nonempty]
  | released acquired =>
    obtain ⟨fetched, named, nonempty, runs⟩ := acquired
    rw [toCreate] at named
    simp [Exchange.removed?, created?, toPull, toCreate, toStart, toStop, toRemove, named, nonempty]

end Tenant

/-! ### Tenants beside each other -/

/-- Tenants, and the calls that have been made, each with the position of its tenant. -/
structure Letting where
  tenants : List Tenant := []
  diary : List (Nat × Exchange) := []

/-- What each part of a list keeps equal, the list keeps up to its order. -/
theorem perm_of_parts {α β : Type} {f g : α → Option β} {n : Nat} {l : List (Nat × α)}
    (known : ∀ x ∈ l, x.1 < n)
    (parts : ∀ i < n, ((l.filter (·.1 == i)).map (·.2)).filterMap f =
      ((l.filter (·.1 == i)).map (·.2)).filterMap g) :
    ((l.map (·.2)).filterMap f).Perm ((l.map (·.2)).filterMap g) := by
  induction n generalizing l with
  | zero =>
    obtain rfl : l = [] := List.eq_nil_iff_forall_not_mem.mpr fun x mem => by
      have := known x mem
      omega
    exact .nil
  | succ n ih =>
    have split := (List.filter_append_perm (·.1 == n) l).symm.map (·.2)
    have others : (((l.filter (fun x => !(x.1 == n))).map (·.2)).filterMap f).Perm
        (((l.filter (fun x => !(x.1 == n))).map (·.2)).filterMap g) := by
      refine ih (fun x mem => ?_) fun i below => ?_
      · obtain ⟨mem, other⟩ := List.mem_filter.mp mem
        have := known x mem
        simp only [Bool.not_eq_true', beq_eq_false_iff_ne] at other
        omega
      · have same : (l.filter (fun x => !(x.1 == n))).filter (·.1 == i) = l.filter (·.1 == i) := by
          rw [List.filter_filter]
          refine List.filter_congr fun x _ => ?_
          by_cases mine : x.1 = i
          · simp [mine, Nat.ne_of_lt below]
          · simp [mine]
        rw [same]
        exact parts i (Nat.lt_succ_of_lt below)
    refine (split.filterMap f).trans (.trans ?_ (split.filterMap g).symm)
    rw [List.map_append, List.filterMap_append, List.filterMap_append, parts n (Nat.lt_succ_self n)]
    exact others.append_left _

namespace Letting

variable {s : Letting}

/-- The calls that have been made for the tenant at a position. -/
def own (s : Letting) (i : Nat) : List Exchange := (s.diary.filter (·.1 == i)).map (·.2)

/-- Runs of tenants. They come when they like, and whoever has something to do next may do it next;
nobody goes away half-way. -/
inductive Run (c : ContainerClient) : Letting → Prop where
  | empty : Run c {}
  | enter {s : Letting} (run : Run c s) (image : String) :
      Run c { s with tenants := s.tenants ++ [.acquiring (c.acquiring image)] }
  | move {s : Letting} {i : Nat} {t t' : Tenant} {said : List Exchange} (run : Run c s)
      (here : s.tenants[i]? = some t) (moves : t.Moves c said t') :
      Run c ⟨s.tenants.set i t', s.diary ++ said.map (i, ·)⟩

theorem own_move (tenants : List Tenant) (i j : Nat) :
    (⟨tenants, s.diary ++ said.map (i, ·)⟩ : Letting).own j =
      s.own j ++ if i = j then said else [] := by
  by_cases same : i = j
  · subst same
    simp [own, List.filter_map, Function.comp_def]
  · simp [own, List.filter_map, Function.comp_def, same]

/-- Each tenant's own calls tell what has become of the tenant. -/
structure Sound (c : ContainerClient) (s : Letting) : Prop where
  lived : ∀ (i : Nat) (t : Tenant), s.tenants[i]? = some t → ∃ image, t.Lived c image (s.own i)
  known : ∀ entry ∈ s.diary, entry.1 < s.tenants.length

/-- Nothing has been said for a tenant who only comes. -/
theorem Sound.enter (sound : s.Sound c) (image : String) :
    Sound c { s with tenants := s.tenants ++ [.acquiring (c.acquiring image)] } where
  lived i t there := by
    by_cases old : i < s.tenants.length
    · rw [List.getElem?_append_left old] at there
      exact sound.lived i t there
    · rw [List.getElem?_append_right (Nat.le_of_not_lt old)] at there
      obtain rfl := List.mem_singleton.mp (List.mem_of_getElem? there)
      have unsaid : s.own i = [] := by
        simp only [own, List.map_eq_nil_iff, List.filter_eq_nil_iff, beq_iff_eq]
        intro entry mem same
        have := sound.known entry mem
        omega
      refine ⟨image, ?_⟩
      change (c.acquiring image).Leads c (s.own i) _
      rw [unsaid]
      exact .here
  known entry mem := by
    have := sound.known entry mem
    simp only [List.length_append]
    omega

/-- What somebody does next changes nothing for anybody else. -/
theorem Sound.move {i : Nat} {t t' : Tenant} (sound : s.Sound c) (here : s.tenants[i]? = some t)
    (moves : t.Moves c said t') : Sound c ⟨s.tenants.set i t', s.diary ++ said.map (i, ·)⟩ := by
  have below : i < s.tenants.length := (List.getElem?_eq_some_iff.mp here).1
  refine ⟨fun j u there => ?_, fun entry mem => ?_⟩
  · rw [own_move]
    by_cases same : i = j
    · subst same
      rw [List.getElem?_set_self below] at there
      obtain rfl := Option.some.inj there
      obtain ⟨image, lived⟩ := sound.lived i t here
      exact ⟨image, by simpa using lived.moves moves⟩
    · rw [List.getElem?_set_ne same] at there
      simpa [same] using sound.lived j u there
  · rw [List.length_set]
    obtain old | ⟨x, -, rfl⟩ := (List.mem_append.mp mem).imp_right List.mem_map.mp
    · exact sound.known entry old
    · exact below

theorem Run.sound (run : s.Run c) : s.Sound c := by
  induction run with
  | empty => exact ⟨by simp, by simp⟩
  | enter run image ih => exact ih.enter image
  | move run here moves ih => exact ih.move here moves

/-- When nothing is left to be done, what has been removed is what has been created. -/
theorem Run.balanced (run : s.Run c) (through : ∀ t ∈ s.tenants, t.isOver = true) :
    ((s.diary.map (·.2)).filterMap Exchange.removed?).Perm
      ((s.diary.map (·.2)).filterMap c.created?) := by
  obtain ⟨lived, known⟩ := run.sound
  refine perm_of_parts known fun i below => ?_
  obtain ⟨image, lived⟩ := lived i s.tenants[i] (List.getElem?_eq_getElem below)
  exact (lived.story (through _ (List.getElem_mem below))).balanced

/-- What somebody does at a stretch, nobody need come in between. -/
theorem Run.go {i : Nat} {t t' : Tenant} (run : s.Run c) (here : s.tenants[i]? = some t)
    (goes : t.Goes c said t') :
    Run c ⟨s.tenants.set i t', s.diary ++ said.map (i, ·)⟩ := by
  induction goes generalizing s with
  | @here t =>
    obtain ⟨below, rfl⟩ := List.getElem?_eq_some_iff.mp here
    simpa using run
  | move moves _ ih =>
    have below : i < s.tenants.length := (List.getElem?_eq_some_iff.mp here).1
    simpa using ih (run.move here moves) (List.getElem?_set_self below)

end Letting

/-! ### A manager and its leases -/

namespace ContainerManager

variable {m m' : ContainerManager} {α : Type} {answers : List (Except Cause String)}

/-- A manager works with the client, and stops nothing in the background. -/
structure Serves (c : ContainerClient) (m : ContainerManager) : Prop where
  ours : m.runtime = c.runtime
  idle : m.cleanups = []

/-- Where nothing goes on in the background, time only passes. -/
theorem pass_idle (idle : m.cleanups = []) (ms : Nat) :
    m.pass ms = { m with world := { m.world with clock := m.world.clock + ms } } := by
  have rests (s : ContainerManager) (same : s = m) : clockwork.step s = none := by
    simp [clockwork, step, same, idle, Cleanup.stepFirst]
  have still : clockwork.run (fun _ => false) (some (m.world.clock + ms)) m = m :=
    Clockwork.run_preserves (P := (· = m))
      (fun s s' stepped same => by simp [rests s same] at stepped)
      (fun t s _ _ due same => by simp [clockwork, same, idle, earliest?] at due) _ rfl
  unfold ContainerManager.pass
  split
  next none_passes => rw [none_passes, Nat.add_zero]
  next => exact congrArg (clockwork.moveTo (m.world.clock + ms)) still

theorem calls_note {event : Event} (untold : c.exchange? event = none) :
    c.calls (m.note event).world = c.calls m.world := by
  rw [note, ContainerClient.calls_note, untold]
  exact List.append_nil _

/-- A dialogue is held to its end, by calls of which the world tells. -/
theorem complete_dialogue (serves : m.Serves c) (d : Dialogue (Except Cause α)) :
    ∃ m' answer told, m.complete (d.work c) = (m', answer) ∧ m'.Serves c ∧
      m'.leases = m.leases ∧ c.calls m'.world = c.calls m.world ++ told ∧
      d.Leads c told (.done answer) := by
  obtain ⟨m', answer, told, completed, ⟨still, leases⟩, calls, _, rfl, leads⟩ :=
    (d.work_tells (c := c) []).completed (h := holder) {}
      (fun s => s.Serves c ∧ s.leases = m.leases) (fun _ _ => rfl)
      (fun _ _ quiet => ⟨⟨quiet.1.1, quiet.1.2⟩, quiet.2⟩)
      (fun ms s quiet => by
        have passed : holder.pass ms s = _ := pass_idle quiet.1.idle ms
        rw [passed]
        exact ⟨⟨⟨quiet.1.ours, quiet.1.idle⟩, quiet.2⟩, rfl⟩)
      ⟨serves, rfl⟩
  exact ⟨m', answer, _, by simp [complete, completed], still, leases, calls, leads⟩

/-- An acquisition says what is to be said for it, and gives out a lease on what it comes to. -/
theorem leads_acquire (serves : m.Serves c) (image : String) :
    (m.acquire image).1.Serves c ∧
      (m.acquire image).1.leases =
        m.leases ++ (Tenant.ofAnswer (m.acquire image).2).lease?.toList ∧
      ∃ told, c.calls (m.acquire image).1.world = c.calls m.world ++ told ∧
        (c.acquiring image).Leads c told (.done (m.acquire image).2) := by
  have asking : (m.note (.pull (Image.normalize image))).Serves c := ⟨serves.ours, serves.idle⟩
  obtain ⟨m₁, pulled, told, first, serves₁, leases₁, calls₁, leads₁⟩ :=
    complete_dialogue asking (fetching (Image.normalize image))
  rw [calls_note rfl] at calls₁
  have asked : m.runtime.pull = c.pull := by rw [serves.ours]; rfl
  rw [← c.pull_eq] at first
  cases pulled with
  | error cause =>
    have came : m.acquire image = (m₁, .error cause) := by simp [acquire, asked, first]
    rw [came]
    exact ⟨serves₁, leases₁.trans (List.append_nil _).symm, told, calls₁, leads₁.bind⟩
  | ok =>
    have ready : ((m₁.note (.pulled (Image.normalize image))).note
        (.start (Image.normalize image))).Serves c := ⟨serves₁.ours, serves₁.idle⟩
    obtain ⟨m₂, started, more, second, serves₂, leases₂, calls₂, leads₂⟩ :=
      complete_dialogue ready (c.starting (Image.normalize image))
    rw [calls_note rfl, calls_note rfl, calls₁, List.append_assoc] at calls₂
    have askedNext : m₁.runtime.start = c.start := by rw [serves₁.ours]; rfl
    rw [← c.start_eq] at second
    have leads : (c.acquiring image).Leads c (told ++ more) (.done started) :=
      leads₁.bind.trans leads₂
    have leases : m₂.leases = m.leases := leases₂.trans leases₁
    cases started with
    | error cause =>
      have came : m.acquire image = (m₂, .error cause) := by
        simp [acquire, asked, first, askedNext, second]
      rw [came]
      exact ⟨serves₂, leases.trans (List.append_nil _).symm, _, calls₂, leads⟩
    | ok id =>
      have came : m.acquire image = (({ m₂ with leases := m₂.leases ++ [⟨some id⟩] } :
          ContainerManager).note (.started (Image.normalize image) id), .ok id) := by
        simp [acquire, asked, first, askedNext, second]
      rw [came]
      exact ⟨⟨serves₂.ours, serves₂.idle⟩, congrArg (· ++ _) leases, _,
        (calls_note rfl).trans calls₂, leads⟩

/-- Giving back a lease says what is to be said for the stop of its container. -/
theorem leads_release {lease : Nat} {id : String} (serves : m.Serves c)
    (held : m.held? lease = some id) :
    (m.release lease).Serves c ∧ (m.release lease).leases = m.leases.set lease ⟨none⟩ ∧
      ∃ told answer, c.calls (m.release lease).world = c.calls m.world ++ told ∧
        (stopping id).Leads c told (.done answer) := by
  have returned : (({ m with leases := m.leases.set lease ⟨none⟩ } : ContainerManager).note
      (.stop id)).Serves c := ⟨serves.ours, serves.idle⟩
  obtain ⟨m₁, answer, told, completed, serves₁, leases₁, calls₁, leads⟩ :=
    complete_dialogue returned (stopping id)
  rw [calls_note rfl] at calls₁
  have asked : m.runtime.stop = c.stop := by rw [serves.ours]; rfl
  rw [← c.stop_eq] at completed
  have came : m.release lease = m₁.note (.stopped id) := by
    simp [release, held, stop, asked, completed]
  rw [came]
  exact ⟨⟨serves₁.ours, serves₁.idle⟩, leases₁, told, answer, (calls_note rfl).trans calls₁, leads⟩

/-- A manager has been used, and acquisitions have answered this. In between others do to the world
what they like, except that they do not call the client. -/
inductive Used (c : ContainerClient) :
    ContainerManager → List (Except Cause String) → Prop where
  | fresh {w : World} (uncalled : c.calls w = []) : Used c { runtime := c.runtime, world := w } []
  | elsewhere {m : ContainerManager} {answers : List (Except Cause String)} {w : World}
      (used : Used c m answers) (uncalled : c.calls w = c.calls m.world) :
      Used c { m with world := w } answers
  | acquire {m : ContainerManager} {answers : List (Except Cause String)}
      (used : Used c m answers) (image : String) :
      Used c (m.acquire image).1 (answers ++ [(m.acquire image).2])
  | release {m : ContainerManager} {answers : List (Except Cause String)}
      (used : Used c m answers) (lease : Nat) : Used c (m.release lease) answers

/-- A run of tenants tells what the history, the leases and the answers of a manager tell. -/
structure Mirrors (c : ContainerClient) (s : Letting) (m : ContainerManager)
    (answers : List (Except Cause String)) : Prop where
  calls : s.diary.map (·.2) = c.calls m.world
  leases : s.tenants.filterMap Tenant.lease? = m.leases
  answered : s.tenants.map Tenant.answer? = answers.map some
  /-- Each tenant is through or holds a container. -/
  settled : ∀ t ∈ s.tenants, t.isOver = true ∨ ∃ id, t = .holding id

/-- Replacing a member of a list replaces what comes of it. -/
theorem exists_of_filterMap {α β : Type} {f : α → Option β} {l : List α} {k : Nat} {b : β}
    (there : (l.filterMap f)[k]? = some b) :
    ∃ i a, l[i]? = some a ∧ f a = some b ∧ ∀ a' b', f a' = some b' →
      (l.set i a').filterMap f = (l.filterMap f).set k b' := by
  induction l generalizing k with
  | nil => cases there
  | cons first rest ih =>
    cases image : f first with
    | none =>
      rw [List.filterMap_cons_none image] at there
      obtain ⟨i, a, found, comes, replaces⟩ := ih there
      refine ⟨i + 1, a, found, comes, fun a' b' h => ?_⟩
      rw [List.set_cons_succ, List.filterMap_cons_none image, List.filterMap_cons_none image,
        replaces a' b' h]
    | some x =>
      rw [List.filterMap_cons_some image] at there
      cases k with
      | zero =>
        obtain rfl := Option.some.inj there
        refine ⟨0, first, rfl, image, fun a' b' h => ?_⟩
        rw [List.set_cons_zero, List.filterMap_cons_some h, List.filterMap_cons_some image,
          List.set_cons_zero]
      | succ k =>
        obtain ⟨i, a, found, comes, replaces⟩ := ih there
        refine ⟨i + 1, a, found, comes, fun a' b' h => ?_⟩
        rw [List.set_cons_succ, List.filterMap_cons_some image, List.filterMap_cons_some image,
          List.set_cons_succ, replaces a' b' h]

/-- Replacing a member of a list by one that is told the same is not told. -/
theorem map_set_of_same {α β : Type} {f : α → β} {l : List α} {i : Nat} {a a' : α}
    (there : l[i]? = some a) (same : f a' = f a) : (l.set i a').map f = l.map f := by
  obtain ⟨below, rfl⟩ := List.getElem?_eq_some_iff.mp there
  have bound : i < (l.map f).length := by simpa using below
  have told : f a' = (l.map f)[i] := by simpa using same
  rw [List.map_set, told, List.set_getElem_self]

/-- The uses of a manager are runs of tenants who come one after the other. -/
theorem Used.exists_run (used : Used c m answers) :
    m.Serves c ∧ ∃ s : Letting, s.Run c ∧ Mirrors c s m answers := by
  induction used with
  | fresh uncalled => exact ⟨⟨rfl, rfl⟩, {}, .empty, uncalled.symm, rfl, rfl, by simp⟩
  | elsewhere used uncalled ih =>
    obtain ⟨⟨ours, idle⟩, s, run, calls, leases, answered, settled⟩ := ih
    exact ⟨⟨ours, idle⟩, s, run, calls.trans uncalled.symm, leases, answered, settled⟩
  | @acquire m answers used image ih =>
    obtain ⟨serves, s, run, calls, leases, answered, settled⟩ := ih
    obtain ⟨still, leased, told, called, leads⟩ := leads_acquire serves image
    have here : (s.tenants ++ [.acquiring (c.acquiring image)])[s.tenants.length]? =
        some (.acquiring (c.acquiring image)) := by simp
    have acquired := (run.enter image).go here (.acquiring leads (.move .acquire .here))
    refine ⟨still, ⟨s.tenants ++ [.ofAnswer (m.acquire image).2], _⟩, by simpa using acquired,
      by simp [Function.comp_def, called, calls], ?_, by simp [answered], fun t mem => ?_⟩
    · rw [leased, List.filterMap_append, leases]
      cases (m.acquire image).2 <;> rfl
    · obtain old | rfl := (List.mem_append.mp mem).imp_right List.mem_singleton.mp
      · exact settled t old
      · cases (m.acquire image).2 with
        | ok id => exact .inr ⟨id, rfl⟩
        | error cause => exact .inl rfl
  | @release m answers used lease ih =>
    obtain ⟨serves, s, run, calls, leases, answered, settled⟩ := ih
    cases held : m.held? lease with
    | none =>
      have unchanged : m.release lease = m := by simp [ContainerManager.release, held]
      rw [unchanged]
      exact ⟨serves, s, run, calls, leases, answered, settled⟩
    | some id =>
      obtain ⟨still, returned, told, answer, called, leads⟩ := leads_release serves held
      have given : (s.tenants.filterMap Tenant.lease?)[lease]? = some ⟨some id⟩ := by
        obtain ⟨⟨container⟩, there, named⟩ := Option.bind_eq_some_iff.mp held
        rw [leases, there]
        exact congrArg (fun name => some (Lease.mk name)) named
      obtain ⟨i, t, here, leased, replaces⟩ := exists_of_filterMap given
      obtain rfl : t = .holding id := by
        cases t <;> simp_all [Tenant.lease?]
      have left := run.go here (.move .release (.releasing leads (.move .leave .here)))
      refine ⟨still, ⟨s.tenants.set i (.released id answer), _⟩, by simpa using left,
        by simp [Function.comp_def, called, calls], ?_, ?_, fun t mem => ?_⟩
      · rw [returned, ← leases]
        exact replaces _ _ rfl
      · rw [← answered]
        exact map_set_of_same here rfl
      · obtain old | rfl := List.mem_or_eq_of_mem_set mem
        · exact settled t old
        · exact .inl rfl

/-- When all leases have been given back, nothing is left to be done. -/
theorem Mirrors.over {s : Letting} (mirrors : Mirrors c s m answers)
    (returned : ∀ lease ∈ m.leases, lease.container = none) :
    ∀ t ∈ s.tenants, t.isOver = true := by
  intro t mem
  obtain through | ⟨id, rfl⟩ := mirrors.settled t mem
  · exact through
  · have held : Lease.mk (some id) ∈ m.leases := by
      rw [← mirrors.leases]
      exact List.mem_filterMap.mpr ⟨_, mem, rfl⟩
    exact absurd (returned _ held) (by simp)

end ContainerManager

/-! ### The steps of a stage have their container as from a manager -/

/-- Two worlds are the same to work that is performed in them, and tell of the same events at the
same times. -/
structure World.Twins (w w' : World) : Prop where
  clock : w'.clock = w.clock
  counters : w'.counters = w.counters
  files : w'.files = w.files
  told : w'.history.map (fun r => (r.time, r.event)) = w.history.map fun r => (r.time, r.event)

theorem World.Twins.note {w w' : World} (twins : w.Twins w') (place place' : Place)
    (event : Event) : (w.note place event).Twins (w'.note place' event) :=
  ⟨twins.clock, twins.counters, twins.files, by simp [World.note, twins.clock, twins.told]⟩

theorem World.Twins.log {w w' : World} (twins : w.Twins w') (place place' : Place)
    (workflow : String) (level : LogLevel) (message : String) :
    (w.log place workflow level message).Twins (w'.log place' workflow level message) :=
  ⟨twins.clock, twins.counters, twins.files, (twins.note place place' (.logged ..)).told⟩

namespace OwnSteps

variable {context : Context} {stage : Stage} {agent : Agent} {m : ContainerManager} {w : World}

/-- What comes of a turn when the steps are left alone and the clock goes on to what they wait
for. -/
inductive Comes (context : Context) (stage : Stage) (agent : Agent) : Result → Result → Prop where
  | here {result : Result} : Comes context stage agent result result
  | later {w : World} {own : OwnSteps} {result : Result}
      (goesOn : Comes context stage agent (own.move context stage agent
        { w with clock := (earliest? (own.timers.map (·.due))).getD w.clock }) result) :
      Comes context stage agent (.moved w own) result

theorem Comes.trans {r r' r'' : Result} (comes : Comes context stage agent r r')
    (later : Comes context stage agent r' r'') : Comes context stage agent r r'' := by
  induction comes with
  | here => exact later
  | later _ ih => exact .later (ih later)

/-- Work that steps wait for comes to what it comes to for a manager. -/
theorem comes_of_complete {α : Type} {work : Work (Except Cause α)} (context : Context)
    (stage : Stage) (agent : Agent) (follow : World × Progress (Except Cause α) → Result)
    (pending : Waiting (Except Cause α) → OwnSteps)
    (waits : ∀ w wait, follow (w, .waits wait) = .moved w (pending wait))
    (timers : ∀ wait, (pending wait).timers = [wait.timer])
    (goesOn : ∀ w wait, w.isDue wait.timer = true → (pending wait).move context stage agent w =
      follow (World.perform context.place wait.rest w))
    (ends : work.Ends fun _ _ => True) (idle : m.cleanups = []) (twins : w.Twins m.world) :
    ∃ w' m' answer, m.complete work = (m', answer) ∧ m'.runtime = m.runtime ∧ m'.cleanups = [] ∧
      Comes context stage agent (follow (World.perform context.place work w))
        (follow (w', .finished answer)) ∧ w'.Twins m'.world := by
  induction work generalizing w m with
  | done answer => exact ⟨w, m, answer, rfl, rfl, idle, .here, twins⟩
  | sleep ms rest ih =>
    have passed : m.complete (.sleep ms rest) =
        (m.pass (min ms longestWait)).complete (rest ()) := rfl
    rw [passed, ContainerManager.pass_idle idle]
    cases ms with
    | zero => exact ih () ends idle ⟨twins.clock, twins.counters, twins.files, twins.told⟩
    | succ ms =>
      obtain ⟨w', m', answer, completed, ours, still, comes, later⟩ := ih ()
        (w := { w with
          tickets := w.tickets + 1, clock := w.clock + min (ms + 1) longestWait })
        (m := { m with world := { m.world with clock := m.world.clock + min (ms + 1) longestWait } })
        ends idle ⟨by simp [twins.clock], twins.counters, twins.files, twins.told⟩
      refine ⟨w', m', answer, completed, ours, still, ?_, later⟩
      rw [World.perform, waits]
      refine .later ?_
      rw [timers, goesOn _ _ (by simp [World.isDue, World.setTimer, earliest?])]
      exact comes
  | log workflow level message rest ih =>
    exact ih ends idle (twins.log context.place {} workflow level message)
  | remark what rest ih => exact ih ends idle (twins.note context.place {} (.remarked what))
  | count counter rest ih =>
    have same : (w.countUp counter).2 = (m.world.countUp counter).2 := by
      simp [World.countUp, twins.counters]
    have counted : (w.countUp counter).1.Twins (m.world.countUp counter).1 :=
      ⟨twins.clock, by simp [World.countUp, twins.counters], twins.files, twins.told⟩
    have performed : World.perform context.place (.count counter rest) w =
        World.perform context.place (rest (m.world.countUp counter).2) (w.countUp counter).1 := by
      rw [← same]
      rfl
    rw [performed]
    exact ih _ (ends _) idle counted
  | readFiles rest ih =>
    rw [World.perform, ← twins.files, ← twins.clock]
    exact ih _ (ends _) idle twins
  | writeFiles files rest ih =>
    exact ih ends idle ⟨twins.clock, twins.counters, rfl, twins.told⟩
  | crash reason => exact ends.elim

/-- A stage that is left alone acquires its container as a manager does: with the same events at the
same times, and with the same answer. -/
theorem acquires_like_manager {image : String} (docker : agent.image? = some image)
    (free : context.cancelled = false) (ours : m.runtime = context.engine.runtime)
    (idle : m.cleanups = []) (pulls : ∀ name, (m.runtime.pull name).Ends fun _ _ => True)
    (starts : ∀ name, (m.runtime.start name).Ends fun _ _ => True) (twins : w.Twins m.world) :
    ∃ w', w'.Twins (m.acquire image).1.world ∧
      Comes context stage agent (entering.move context stage agent w)
        (match (m.acquire image).2 with
        | .ok id => .moved (w'.log context.place context.place.workflow .info
            s!"Stage '{stage.name}' running in container {id} ({image})")
            (.between (some id) stage.steps [])
        | .error cause => .ended w' (withoutContainer image cause)) := by
  have begun := twins.note context.place {} (.pull (Image.normalize image))
  obtain ⟨w₁, m₁, pulled, first, ours₁, idle₁, comes₁, twins₁⟩ :=
    comes_of_complete (m := m.note (.pull (Image.normalize image))) context stage agent
      (followPull context image) (pulling image) (fun _ _ => rfl) (fun _ => rfl)
      (fun _ _ due => by simp [move, due]) (pulls (Image.normalize image)) idle begun
  have entered : entering.move context stage agent w = followPull context image
      (World.perform context.place (m.runtime.pull (Image.normalize image))
        (w.note context.place (.pull (Image.normalize image)))) := by
    simp [move, docker, free, ours]
  rw [entered]
  cases pulled with
  | error cause =>
    have came : m.acquire image = (m₁, .error cause) := by simp [ContainerManager.acquire, first]
    rw [came]
    exact ⟨w₁, twins₁, comes₁⟩
  | ok =>
    have ready := (twins₁.note context.place {} (.pulled (Image.normalize image))).note
      context.place {} (.start (Image.normalize image))
    have same : m₁.runtime = m.runtime := ours₁
    obtain ⟨w₂, m₂, started, second, -, -, comes₂, twins₂⟩ :=
      comes_of_complete
        (m := (m₁.note (.pulled (Image.normalize image))).note (.start (Image.normalize image)))
        context stage agent (followStart context stage image) (starting image) (fun _ _ => rfl)
        (fun _ => rfl) (fun _ _ due => by simp [move, due]) (starts (Image.normalize image)) idle₁
        ready
    have between : Comes context stage agent
        (followPull context image (w₁, .finished (.ok ()))) (followStart context stage image
          (World.perform context.place (m.runtime.start (Image.normalize image))
            ((w₁.note context.place (.pulled (Image.normalize image))).note context.place
              (.start (Image.normalize image))))) := by
      rw [ours]
      exact .later .here
    rw [← same] at second
    cases started with
    | error cause =>
      have came : m.acquire image = (m₂, .error cause) := by
        simp [ContainerManager.acquire, first, second]
      rw [came]
      exact ⟨w₂, twins₂, (comes₁.trans between).trans comes₂⟩
    | ok id =>
      have came : m.acquire image = (({ m₂ with leases := m₂.leases ++ [⟨some id⟩] } :
          ContainerManager).note (.started (Image.normalize image) id), .ok id) := by
        simp [ContainerManager.acquire, first, second]
      rw [came]
      exact ⟨_, twins₂.note context.place {} (.started (Image.normalize image) id),
        (comes₁.trans between).trans comes₂⟩

/-- It gives its container back as a manager does. -/
theorem releases_like_manager {lease : Nat} {id : String} {result : StepsResult}
    (ours : m.runtime = context.engine.runtime) (idle : m.cleanups = [])
    (held : m.held? lease = some id) (stops : (m.runtime.stop id).Ends fun _ _ => True)
    (twins : w.Twins m.world) :
    ∃ w', w'.Twins (m.release lease).world ∧
      Comes context stage agent ((leaving (some id) result).move context stage agent w)
        (.ended w' result) := by
  obtain ⟨w₁, m₁, answer, stopped, -, -, comes, later⟩ :=
    comes_of_complete
      (m := ({ m with leases := m.leases.set lease ⟨none⟩ } : ContainerManager).note (.stop id))
      context stage agent (followStop context id result) (fun wait => stopping id wait result)
      (fun _ _ => rfl) (fun _ => rfl) (fun _ _ due => by simp [move, due]) stops idle
      (twins.note context.place {} (.stop id))
  have came : m.release lease = m₁.note (.stopped id) := by
    simp [ContainerManager.release, held, ContainerManager.stop, stopped]
  rw [came]
  refine ⟨_, later.note context.place {} (.stopped id), ?_⟩
  rw [move, ← ours]
  exact comes

end OwnSteps

/-! ### Nothing is forgotten -/

/-- Among these calls every container that has been created and named has been removed. -/
structure Accounted (c : ContainerClient) (said : List Exchange) : Prop where
  balanced : (said.filterMap Exchange.removed?).Perm (said.filterMap c.created?)
  /-- If no name comes twice, each has been removed by one call. -/
  once : (said.filterMap c.created?).Nodup → ∀ id ∈ said.filterMap c.created?,
    (said.countP fun x => x.arguments = toRemove id) = 1

/-- Everybody has done with the containers, and none is left behind. -/
structure Letting.Settled (c : ContainerClient) (s : Letting) : Prop where
  /-- Each tenant has such a story, which tells what calls there were and in which order. -/
  stories : ∀ (i : Nat) (t : Tenant), s.tenants[i]? = some t →
    ∃ image, t.Story c (Image.normalize image) (s.own i)
  accounted : Accounted c (s.diary.map (·.2))

theorem Letting.Run.settled {s : Letting} (run : s.Run c)
    (through : ∀ t ∈ s.tenants, t.isOver = true) : s.Settled c where
  stories i t there := by
    obtain ⟨image, lived⟩ := run.sound.lived i t there
    exact ⟨image, lived.story (through t (List.mem_of_getElem? there))⟩
  accounted.balanced := run.balanced through
  accounted.once distinct id mem := by
    rw [← Exchange.count_removed, (run.balanced through).count_eq]
    exact List.count_eq_one_of_mem distinct mem

/-- No container is forgotten, whatever the calls of the client come to. When nothing is left to be
done for any tenant of a run, each container that has been created has been removed. The uses of a
manager are such runs, by the calls that its history tells of, and when all leases have been given
back, nothing is left to be done. However the work of the runtime is performed turn by turn beside
other work, the calls that its turns tell of hold such a dialogue as tenants hold. -/
theorem ContainerClient.no_container_is_forgotten (c : ContainerClient) :
    (∀ s : Letting, s.Run c → (∀ t ∈ s.tenants, t.isOver = true) → s.Settled c) ∧
      (∀ m answers, ContainerManager.Used c m answers →
        ∃ s : Letting, s.Run c ∧ ContainerManager.Mirrors c s m answers ∧
          ((∀ lease ∈ m.leases, lease.container = none) →
            s.Settled c ∧ Accounted c (c.calls m.world))) ∧
      (∀ text, c.pull text = (fetching text).work c ∧ c.start text = (c.starting text).work c ∧
        c.stop text = (stopping text).work c) ∧
      ∀ (α : Type) (d : Dialogue α) place turns a, World.Performs place (d.work c) turns a →
        d.Leads c (c.callsDuring turns) (.done a) := by
  refine ⟨fun s run through => run.settled through, fun m answers used => ?_,
    fun text => ⟨c.pull_eq text, c.start_eq text, c.stop_eq text⟩,
    fun α d place turns a performed => ?_⟩
  · obtain ⟨-, s, run, mirrors⟩ := used.exists_run
    refine ⟨s, run, mirrors, fun returned => ?_⟩
    have settled := run.settled (mirrors.over returned)
    exact ⟨settled, mirrors.calls ▸ settled.accounted⟩
  · obtain ⟨told, same, leads⟩ := (d.work_tells []).performs performed
    rwa [List.nil_append, List.nil_append, ← same] at *

namespace Tenants

/-- Writes a text to an output, and ends with a code. -/
def writes (descriptor : Nat) (text : String) (code : Nat) : Routine :=
  (do Act.print descriptor text; Act.exit code : Act Unit).routine

/-- Of the containers that come of two images, one does not start and cannot be removed either, the
other one cannot be stopped. -/
def load (_ : String) (call : Call) : Routine :=
  match call.argv.tail with
  | "pull" :: _ => writes 1 "" 0
  | "create" :: rest => writes 1 (if rest.contains "maven:3.9" then "c1\n" else "c2\n") 0
  | ["start", "c2"] | ["rm", "-f", "c2"] => writes 1 "c2\n" 0
  | _ => writes 2 "no" 1

def client : ContainerClient := ⟨⟨load, [], "/"⟩, "/docker"⟩

/-- A host on which there is nothing but the client. -/
def host : FileTree where
  nodes := #[⟨.directory 0 [("docker", 1)], 0o755, 0⟩, ⟨.program "docker", 0o755, 0⟩]

def vacant : ContainerManager := { runtime := client.runtime, world := { files := host } }

/-- One tenant gets no container, and the other one gives its container back. -/
def used : ContainerManager := ((vacant.acquire "maven:3.9").1.acquire "alpine").1.release 0

def answers : List (Except Cause String) :=
  [(vacant.acquire "maven:3.9").2, ((vacant.acquire "maven:3.9").1.acquire "alpine").2]

def prints (bytes : List UInt8) : Except StartError Finished := .ok ⟨.code 0, bytes, []⟩

def fails : Except StartError Finished := .ok ⟨.code 1, [], [110, 111]⟩

/-- The same tenants beside each other. -/
def neighbours : Letting where
  tenants := [.refused (.because "/docker start c1 failed: exit_code=1, stderr='no'"),
    .released "c2" (.error (.because "/docker stop c2 failed: exit_code=1, stderr='no'"))]
  diary :=
    [(1, ⟨toPull "alpine:latest", prints []⟩), (1, ⟨toCreate "alpine:latest", prints [99, 50, 10]⟩),
      (1, ⟨toStart "c2", prints [99, 50, 10]⟩), (0, ⟨toPull "maven:3.9", prints []⟩),
      (0, ⟨toCreate "maven:3.9", prints [99, 49, 10]⟩), (0, ⟨toStart "c1", fails⟩),
      (0, ⟨toRemove "c1", fails⟩), (1, ⟨toStop "c2", fails⟩),
      (1, ⟨toRemove "c2", prints [99, 50, 10]⟩)]

theorem neighbours_run : neighbours.Run client := by
  have enter := (Letting.Run.empty (c := client) |>.enter "maven:3.9").enter "alpine"
  have acquire := enter.go (i := 1) rfl
    (.move (.ask (prints [])) (.move (.ask (prints [99, 50, 10]))
      (.move (.ask (prints [99, 50, 10])) (.move .acquire .here))))
  have refuse := acquire.go (i := 0) rfl
    (.move (.ask (prints [])) (.move (.ask (prints [99, 49, 10]))
      (.move (.ask fails) (.move (.ask fails) (.move .acquire .here)))))
  have leave := refuse.go (i := 1) rfl
    (.move .release (.move (.askBack fails) (.move (.askBack (prints [99, 50, 10]))
      (.move .leave .here))))
  exact leave

/-- The manager has made these calls, and has answered no error but that of the start. -/
theorem used_settled : neighbours.Run client ∧ neighbours.Settled client ∧
    ContainerManager.Used client used answers ∧ used.leases = [⟨none⟩] ∧
    client.calls used.world =
      [⟨toPull "maven:3.9", prints []⟩, ⟨toCreate "maven:3.9", prints [99, 49, 10]⟩,
        ⟨toStart "c1", fails⟩, ⟨toRemove "c1", fails⟩, ⟨toPull "alpine:latest", prints []⟩,
        ⟨toCreate "alpine:latest", prints [99, 50, 10]⟩, ⟨toStart "c2", prints [99, 50, 10]⟩,
        ⟨toStop "c2", fails⟩, ⟨toRemove "c2", prints [99, 50, 10]⟩] ∧
    answers = [.error (.because "/docker start c1 failed: exit_code=1, stderr='no'"), .ok "c2"] ∧
    Accounted client (client.calls used.world) := by
  obtain ⟨lettings, managers, -⟩ := client.no_container_is_forgotten
  have fresh : ContainerManager.Used client vacant [] := .fresh rfl
  have uses : ContainerManager.Used client used answers :=
    ((fresh.acquire "maven:3.9").acquire "alpine").release 0
  have returned : used.leases = [⟨none⟩] := by decide +kernel
  obtain ⟨_, _, _, settled⟩ := managers used answers uses
  exact ⟨neighbours_run, lettings neighbours neighbours_run (by decide), uses, returned,
    by decide +kernel, by decide +kernel, (settled (by simp [returned])).2⟩

end Tenants
end PipelineRunner
