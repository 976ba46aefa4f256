import Mathlib.Data.String.Basic
import PipelineRunner.Proofs.RegistryRuns

/-! The lives of plugins. A plugin that is handed over is asked to start unless its name is taken; if
it starts it is either registered or stopped at once, and from then on it is stopped when its name is
removed. The diary of the registry tells no other lives, whatever fails. -/

namespace PipelineRunner

/-- The number of the plugin that an event is about. -/
def PluginEvent.serial : PluginEvent → Nat
  | started serial _ | failed serial _ | stopped serial _ _ => serial

namespace Registration

variable (p : Registration)

/-- The plugin has been started. -/
def start : PluginEvent := .started p.serial p.name

/-- The plugin has been stopped, well or not. -/
def stop : PluginEvent := .stopped p.serial p.name p.plugin.builtin

/-- What is told of a plugin that does not stop well. -/
def stopError? : Option RegistryError := p.plugin.stopFailure.map (.stopFailed p.name)

/-- The answer to the removal of the plugin. -/
def removal : Except RegistryError Unit :=
  match p.stopError? with
  | some e => .error e
  | none => .ok ()

end Registration

namespace Registry

variable {r r' r₁ : Registry} {name : String} {plugin : Plugin} {p q : Registration} {n : Nat}

/-- What has been done with the plugin of a number, in order. -/
def life (r : Registry) (n : Nat) : List PluginEvent := (r.diary.filter (·.serial == n)).reverse

theorem mem_life {event : PluginEvent} :
    event ∈ r.life n ↔ event ∈ r.diary ∧ event.serial = n := by
  simp [life]

theorem life_noted {event : PluginEvent} (noted : r'.diary = event :: r.diary) :
    r'.life n = r.life n ++ if event.serial = n then [event] else [] := by
  by_cases mine : event.serial = n <;> simp [life, noted, mine]

section Steps

/-- The two tables are in order, a plugin that is registered has been started and no more, and
nothing has been done with plugins that are still to come. -/
structure Living (r : Registry) : Prop extends r.Orderly where
  alive : ∀ p ∈ r.plugins, r.life p.serial = [p.start]
  unborn : ∀ n, r.handed ≤ n → r.life n = []

theorem living_empty : empty.Living :=
  ⟨orderly_empty, by simp [empty], fun _ _ => rfl⟩

theorem life_register (other : n ≠ r.handed) : (r.register name plugin).1.life n = r.life n := by
  have outcome := taken r name plugin
  generalize r.register name plugin = answer at outcome
  cases outcome <;> simp [life, PluginEvent.serial, other.symm]

theorem handed_register : (r.register name plugin).1.handed = r.handed + 1 := by
  have outcome := taken r name plugin
  generalize r.register name plugin = answer at outcome
  cases outcome <;> rfl

theorem handed_of_register {answer : Except RegistryError Unit}
    (begun : r.register name plugin = (r', answer)) : r'.handed = r.handed + 1 :=
  (congrArg (·.1.handed) begun).symm.trans handed_register

theorem Living.register (living : r.Living) (name : String) (plugin : Plugin) :
    (r.register name plugin).1.Living := by
  refine ⟨living.toOrderly.register name plugin, fun p hp => ?_, fun n hn => ?_⟩
  · rcases mem_register.mp hp with old | ⟨accepted, rfl⟩
    · rw [life_register (Nat.ne_of_lt (living.below p old)), living.alive p old]
    · have outcome := taken r name plugin
      generalize r.register name plugin = answer at outcome accepted
      cases outcome <;> cases accepted
      rw [life_noted (r := r) rfl, living.unborn r.handed le_rfl]
      simp [PluginEvent.serial, Registration.start]
  · rw [handed_register] at hn
    rw [life_register (by omega), living.unborn n (by omega)]

theorem Living.unregister (living : r.Living) (name : String) : (r.unregister name).1.Living := by
  refine ⟨living.toOrderly.unregister name, fun q hq => ?_, fun n hn => ?_⟩
  · obtain ⟨hq, other⟩ := mem_unregister.mp hq
    have outcome := removed r name
    generalize r.unregister name = answer at outcome
    cases outcome with
    | unknown => exact living.alive q hq
    | stopped p hp named =>
      have apart : p.serial ≠ q.serial := fun same =>
        other (living.eq_of_serial hp hq same ▸ named)
      simpa [life, PluginEvent.serial, apart] using living.alive q hq
  · have outcome := removed r name
    generalize r.unregister name = answer at outcome hn
    cases outcome with
    | unknown => exact living.unborn n hn
    | stopped p hp =>
      have apart : p.serial ≠ n := Nat.ne_of_lt (Nat.lt_of_lt_of_le (living.below p hp) hn)
      simpa [life, PluginEvent.serial, apart] using living.unborn n hn

theorem Living.step (living : r.Living) (step : Step r r') : r'.Living := by
  cases step with
  | hand name plugin => exact living.register name plugin
  | remove name => exact living.unregister name

theorem Living.leads (living : r.Living) (leads : Leads r r') : r'.Living := by
  induction leads with
  | refl => exact living
  | tail _ step ih => exact ih.step step

theorem living_after (requests : List Request) : (after requests).Living :=
  living_empty.leads (leads_after requests)

theorem Step.handed_le (step : Step r r') : r.handed ≤ r'.handed := by
  cases step with
  | hand name plugin => rw [handed_register]; exact Nat.le_succ _
  | remove name =>
    have outcome := removed r name
    generalize r.unregister name = answer at outcome
    cases outcome <;> exact le_rfl

theorem Leads.handed_le (leads : Leads r r') : r.handed ≤ r'.handed := by
  induction leads with
  | refl => exact le_rfl
  | tail _ step ih => exact ih.trans step.handed_le

end Steps

section Fates

/-- A plugin that has been handed over is not registered. -/
def Gone (r : Registry) (n : Nat) : Prop := n < r.handed ∧ ∀ p ∈ r.plugins, p.serial ≠ n

/-- Nothing is done any more with a plugin that is not registered. -/
theorem Gone.step (gone : r.Gone n) (step : Step r r') : r'.Gone n ∧ r'.life n = r.life n := by
  obtain ⟨past, away⟩ := gone
  cases step with
  | hand name plugin =>
    refine ⟨⟨by rw [handed_register]; omega, fun p hp => ?_⟩, life_register (by omega)⟩
    rcases mem_register.mp hp with hp | ⟨-, rfl⟩
    · exact away p hp
    · exact fun same => absurd past (by simp [← same])
  | remove name =>
    refine ⟨⟨past.trans_le (Step.remove r name).handed_le, fun p hp =>
      away p (mem_unregister.mp hp).1⟩, ?_⟩
    have outcome := removed r name
    generalize r.unregister name = answer at outcome
    cases outcome with
    | unknown => rfl
    | stopped p hp => simp [life, PluginEvent.serial, away p hp]

theorem Gone.leads (gone : r.Gone n) (leads : Leads r r') : r'.Gone n ∧ r'.life n = r.life n := by
  induction leads with
  | refl => exact ⟨gone, rfl⟩
  | tail _ step ih =>
    obtain ⟨gone', same⟩ := ih.1.step step
    exact ⟨gone', same.trans ih.2⟩

/-- A plugin that has been registered either still is, or has been stopped since. -/
def Fared (r : Registry) (p : Registration) : Prop :=
  (p ∈ r.plugins ∧ r.life p.serial = [p.start]) ∨
    (r.Gone p.serial ∧ r.life p.serial = [p.start, p.stop])

theorem Fared.step (fared : r.Fared p) (living : r.Living) (step : Step r r') : r'.Fared p := by
  rcases fared with ⟨registered, life⟩ | ⟨gone, life⟩
  · have living' := living.step step
    by_cases still : p ∈ r'.plugins
    · exact .inl ⟨still, living'.alive p still⟩
    · -- Only the removal of its name takes a plugin away.
      cases step with
      | hand name plugin => exact absurd (mem_register.mpr (.inl registered)) still
      | remove name =>
        have named : p.name = name := by
          by_contra other
          exact still (mem_unregister.mpr ⟨registered, other⟩)
        have outcome := removed r name
        refine .inr ⟨⟨(living.below p registered).trans_le (Step.remove r name).handed_le,
          fun q hq same => ?_⟩, ?_⟩
        · obtain ⟨hq, other⟩ := mem_unregister.mp hq
          exact other (living.eq_of_serial hq registered same ▸ named)
        · generalize r.unregister name = answer at outcome
          cases outcome with
          | unknown free => exact absurd named (free p registered)
          | stopped q hq named' =>
            obtain rfl := living.eq_of_name hq registered (named'.trans named.symm)
            rw [life_noted (r := r) rfl, life]
            simp [PluginEvent.serial, Registration.stop, named]
  · obtain ⟨gone', same⟩ := gone.step step
    exact .inr ⟨gone', same.trans life⟩

theorem Fared.leads (fared : r.Fared p) (living : r.Living) (leads : Leads r r') :
    r'.Fared p := by
  induction leads with
  | refl => exact fared
  | tail before step ih => exact ih.step (living.leads before) step

end Fates

section Objects

variable {requests : List Request}

theorem HandedOver.leads (handedOver : HandedOver requests r' p) :
    Leads empty r' ∧ Leads (r'.register p.name p.plugin).1 (after requests) := by
  obtain ⟨before, request, later, rfl, hands⟩ := handedOver
  refine ⟨(leads_after before).trans hands.leads.1, ?_⟩
  rw [after_split]
  exact hands.leads.2.trans (leads_serveAll later _)

theorem HandedOver.serial_eq (handedOver : HandedOver requests r' p) : p.serial = r'.handed := by
  obtain ⟨before, request, later, -, hands⟩ := handedOver
  exact hands.serial_eq

theorem handedOver_concat (request : Request) :
    HandedOver (requests ++ [request]) r' p ↔
      HandedOver requests r' p ∨ (after requests).Hands request r' p := by
  constructor
  · rintro ⟨before, entry, later, split, hands⟩
    rcases List.eq_nil_or_concat' later with rfl | ⟨init, last, rfl⟩
    · obtain ⟨rfl, rfl⟩ := List.append_singleton_inj.mp split
      exact .inr hands
    · rw [← List.cons_append, ← List.append_assoc] at split
      obtain ⟨rfl, rfl⟩ := List.append_singleton_inj.mp split
      exact .inl ⟨before, entry, init, rfl, hands⟩
  · rintro (⟨before, entry, later, rfl, hands⟩ | hands)
    · exact ⟨before, entry, later ++ [request], by simp, hands⟩
    · exact ⟨requests, request, [], rfl, hands⟩

theorem HandedOver.below (handedOver : HandedOver requests r' p) :
    p.serial < (after requests).handed := by
  have later := Leads.handed_le handedOver.leads.2
  rw [handed_register] at later
  rw [handedOver.serial_eq]
  omega

theorem Hands.le_serial {request : Request} (hands : r.Hands request r' p) :
    r.handed ≤ p.serial := by
  rw [hands.serial_eq]
  exact Leads.handed_le hands.leads.1

/-- One request does not hand over two plugins under one number. -/
theorem Hands.unique {request : Request} (hands : r.Hands request r' p)
    (hands' : r.Hands request r₁ q) (same : p.serial = q.serial) : p = q := by
  cases hands with
  | register name plugin => cases hands'; rfl
  | shell =>
    cases hands' with
    | shell => rfl
    | scm _ _ begun => exact absurd (same.trans (handed_of_register begun)) (Nat.succ_ne_self _).symm
  | scm _ _ begun =>
    cases hands' with
    | shell => exact absurd ((handed_of_register begun).symm.trans same) (Nat.succ_ne_self _)
    | scm _ _ begun' =>
      obtain rfl := congrArg Prod.fst (begun.symm.trans begun')
      rfl

/-- The number tells a plugin apart from all others that have been handed over. -/
theorem HandedOver.unique (handedOver : HandedOver requests r' p)
    (handedOver' : HandedOver requests r₁ q) (same : p.serial = q.serial) : p = q := by
  induction requests using List.reverseRecOn with
  | nil => obtain ⟨before, _, _, none, -⟩ := handedOver; simp at none
  | append_singleton requests request ih =>
    rcases (handedOver_concat request).mp handedOver with old | new <;>
      rcases (handedOver_concat request).mp handedOver' with old' | new'
    · exact ih old old'
    · exact absurd (old.below.trans_le new'.le_serial) (by omega)
    · exact absurd (old'.below.trans_le new.le_serial) (by omega)
    · exact new.unique new' same

/-- How a plugin has fared that was handed over to `r'`: it is left alone if its name was taken, and
otherwise asked to start, once; if it has started it is either registered or has been stopped, once. -/
inductive Lived (requests : List Request) (r' : Registry) (p : Registration) : Prop
  | refused (taken : (r'.find? p.name).isSome) (missing : p ∉ (after requests).plugins)
      (life : (after requests).life p.serial = [])
  | failed (free : r'.find? p.name = none) (fails : p.plugin.startFailure.isSome)
      (missing : p ∉ (after requests).plugins)
      (life : (after requests).life p.serial = [.failed p.serial p.name])
  | registered (free : r'.find? p.name = none) (starts : p.plugin.startFailure = none)
      (registered : p ∈ (after requests).plugins)
      (life : (after requests).life p.serial = [p.start])
  | stopped (free : r'.find? p.name = none) (starts : p.plugin.startFailure = none)
      (missing : p ∉ (after requests).plugins)
      (life : (after requests).life p.serial = [p.start, p.stop])

theorem Gone.not_mem (gone : r.Gone p.serial) : p ∉ r.plugins := fun hp => gone.2 p hp rfl

theorem HandedOver.lived (handedOver : HandedOver requests r' p) : Lived requests r' p := by
  obtain ⟨name, serial, plugin⟩ := p
  obtain rfl := handedOver.serial_eq
  obtain ⟨begun, leads⟩ := handedOver.leads
  have living : r'.Living := living_empty.leads begun
  have living' : (r'.register name plugin).1.Living := living.register name plugin
  have unborn : r'.life r'.handed = [] := living.unborn _ le_rfl
  have gone : ∀ diary, Gone { r' with handed := r'.handed + 1, diary } r'.handed := fun _ =>
    ⟨Nat.lt_succ_self _, fun q hq => Nat.ne_of_lt (living.below q hq)⟩
  have outcome := taken r' name plugin
  generalize r'.register name plugin = answer at outcome leads living'
  cases outcome with
  | known known =>
    obtain ⟨gone, life⟩ := (gone _).leads leads
    exact .refused (find?_isSome.mpr known) gone.not_mem (life.trans unborn)
  | failed cause free fails =>
    obtain ⟨gone, life⟩ := (gone _).leads leads
    refine .failed (find?_eq_none.mpr free) (by simp [fails]) gone.not_mem (life.trans ?_)
    rw [life_noted (r := r') rfl, unborn]
    simp [PluginEvent.serial]
  | conflict existing free starts =>
    obtain ⟨gone, kept⟩ := (gone _).leads leads
    refine .stopped (find?_eq_none.mpr free) starts gone.not_mem (kept.trans ?_)
    simpa [life, PluginEvent.serial, Registration.start, Registration.stop] using unborn
  | entered free starts =>
    have registered : Fared _ ⟨name, r'.handed, plugin⟩ :=
      .inl ⟨by simp, living'.alive ⟨name, r'.handed, plugin⟩ (by simp)⟩
    rcases registered.leads living' leads with ⟨still, life⟩ | ⟨gone, life⟩
    · exact .registered (find?_eq_none.mpr free) starts still life
    · exact .stopped (find?_eq_none.mpr free) starts gone.not_mem life

/-- Registered are exactly the plugins that have been started and have not been stopped. -/
theorem mem_after_iff_started :
    p ∈ (after requests).plugins ↔ (∃ r', HandedOver requests r' p) ∧
      p.start ∈ (after requests).diary ∧ p.stop ∉ (after requests).diary := by
  constructor
  · intro registered
    have life := (living_after requests).alive p registered
    obtain ⟨before, request, later, r', split, hands, -, -⟩ := (mem_after requests).mp registered
    refine ⟨⟨r', before, request, later, split, hands⟩, ?_, fun stopped => ?_⟩
    · exact (mem_life.mp (life ▸ List.mem_singleton_self _)).1
    · have told : p.stop ∈ (after requests).life p.serial := mem_life.mpr ⟨stopped, rfl⟩
      simp [life, Registration.start, Registration.stop] at told
  · rintro ⟨⟨r', handedOver⟩, started, running⟩
    have told : p.start ∈ (after requests).life p.serial := mem_life.mpr ⟨started, rfl⟩
    cases handedOver.lived with
    | refused _ _ life => simp [life] at told
    | failed _ _ _ life => simp [life, Registration.start] at told
    | registered _ _ registered => exact registered
    | stopped _ _ _ life =>
      exact absurd (mem_life.mp (life ▸ by simp : p.stop ∈ (after requests).life p.serial)).1 running

end Objects

section Answers

theorem register_error {e : RegistryError} (refused : (r.register name plugin).2 = .error e) :
    (r.register name plugin).1.plugins = r.plugins ∧
      (r.register name plugin).1.commands = r.commands := by
  have outcome := taken r name plugin
  generalize r.register name plugin = answer at outcome refused
  cases outcome with
  | entered => cases refused
  | known | failed | conflict => exact ⟨rfl, rfl⟩

/-- The registry without a plugin, which has been stopped. -/
def without (r : Registry) (p : Registration) : Registry :=
  { r with
    plugins := r.plugins.filter fun q => q.name != p.name
    commands := r.commands.filter fun b => b.plugin != p.name
    diary := p.stop :: r.diary }

theorem Orderly.unregister_eq (orderly : r.Orderly) (registered : p ∈ r.plugins) :
    r.unregister p.name = (r.without p, p.removal) := by
  have outcome := removed r p.name
  generalize r.unregister p.name = answer at outcome
  cases outcome with
  | unknown free => exact absurd rfl (free p registered)
  | stopped q hq named =>
    obtain rfl := orderly.eq_of_name hq registered named
    cases fails : q.plugin.stopFailure <;>
      simp [without, Registration.removal, Registration.stopError?, Registration.stop, fails]

/-- Removing registered plugins one after the other stops each of them, and tells which of them have
not stopped well. -/
theorem Orderly.unregisterEach (orderly : r.Orderly) (order : List Registration)
    (registered : ∀ p ∈ order, p ∈ r.plugins) (distinct : (order.map (·.name)).Nodup) :
    (r.unregisterEach (order.map (·.name))).1.diary = (order.map (·.stop)).reverse ++ r.diary ∧
      (r.unregisterEach (order.map (·.name))).2 = order.filterMap (·.stopError?) := by
  induction order generalizing r with
  | nil => exact ⟨rfl, rfl⟩
  | cons p rest ih =>
    obtain ⟨fresh, distinct⟩ := List.nodup_cons.mp distinct
    have first := orderly.unregister_eq (registered p List.mem_cons_self)
    have orderly' : (r.without p).Orderly := by
      simpa [first] using orderly.unregister p.name
    have still : ∀ q ∈ rest, q ∈ (r.without p).plugins := by
      intro q hq
      have other : q.name ≠ p.name := fun same =>
        fresh (List.mem_map.mpr ⟨q, hq, same⟩)
      simpa [without, other] using registered q (List.mem_cons_of_mem _ hq)
    obtain ⟨diary, errors⟩ := ih orderly' still distinct
    simp only [List.map_cons, Registry.unregisterEach, first, diary, errors]
    refine ⟨by simp [without], ?_⟩
    cases fails : p.stopError? <;> simp [Registration.removal, fails]

/-- The registered plugins in the order of their names. -/
def inOrder (r : Registry) : List Registration :=
  r.plugins.mergeSort fun p q => p.name ≤ q.name

theorem inOrder_perm (r : Registry) : r.inOrder.Perm r.plugins := List.mergeSort_perm _ _

theorem names_eq (r : Registry) : r.names = r.inOrder.map (·.name) := by
  unfold names inOrder
  exact (List.map_mergeSort (f := fun p : Registration => p.name)
    (s := fun a b => decide (a ≤ b)) fun _ _ _ _ => rfl).symm

theorem Orderly.inOrder_sorted (orderly : r.Orderly) :
    r.inOrder.Pairwise fun p q => p.name < q.name := by
  have sorted : r.inOrder.Pairwise fun p q => decide (p.name ≤ q.name) = true :=
    List.pairwise_mergeSort (by simpa using fun _ _ _ => le_trans)
      (by simpa using fun _ _ => le_total _ _) r.plugins
  have distinct : (r.inOrder.map (·.name)).Nodup :=
    ((r.inOrder_perm.map _).nodup_iff).mpr orderly.names
  rw [List.Nodup, List.pairwise_map] at distinct
  exact sorted.imp₂ (fun _ _ le ne => lt_of_le_of_ne (of_decide_eq_true le) ne) distinct

theorem Orderly.without_eq (orderly : r.Orderly) (registered : p ∈ r.plugins) :
    q ∈ (r.without p).plugins ↔ q ∈ r.plugins ∧ q ≠ p := by
  simp only [without, List.mem_filter, bne_iff_ne]
  refine and_congr_right fun hq => not_congr ⟨fun same => ?_, fun same => congrArg _ same⟩
  exact orderly.eq_of_name hq registered same

/-- The lives of all plugins that are handed over, whatever is asked of the registry and whatever
fails. Each is asked to start at most once, and not at all if its name is taken; it is stopped at most
once, after it has started; and registered are those that have been started and not been stopped. A
plugin that is refused leaves the tables as they were, one that is removed takes its commands along
even if it does not stop well, and to remove all is to stop them all in the order of their names. -/
theorem plugins_live_once (requests : List Request) :
    let r := after requests
    (∀ r' p, HandedOver requests r' p → Lived requests r' p ∧
      ∀ r₁ q, HandedOver requests r₁ q → p.serial = q.serial → p = q) ∧
    (∀ p, p ∈ r.plugins ↔
      (∃ r', HandedOver requests r' p) ∧ p.start ∈ r.diary ∧ p.stop ∉ r.diary) ∧
    (∀ name plugin e, (r.register name plugin).2 = .error e →
      (r.register name plugin).1.plugins = r.plugins ∧
      (r.register name plugin).1.commands = r.commands) ∧
    (∀ p ∈ r.plugins, (r.unregister p.name).2 = p.removal ∧
      (∀ q, q ∈ (r.unregister p.name).1.plugins ↔ q ∈ r.plugins ∧ q ≠ p) ∧
      ∀ b, b ∈ (r.unregister p.name).1.commands ↔ b ∈ r.commands ∧ b.plugin ≠ p.name) ∧
    r.unregisterAll.1.plugins = [] ∧ r.unregisterAll.1.commands = [] ∧
    r.inOrder.Perm r.plugins ∧ (r.inOrder.Pairwise fun p q => p.name < q.name) ∧
    r.unregisterAll.1.diary = (r.inOrder.map (·.stop)).reverse ++ r.diary ∧
    r.unregisterAll.2 = r.inOrder.filterMap (·.stopError?) := by
  intro r
  have orderly : r.Orderly := orderly_after requests
  have perm := r.inOrder_perm
  have empty : r.unregisterAll.1.plugins = [] := plugins_unregisterAll r
  have swept : r.unregisterAll.1.Orderly := orderly.leads (leads_unregisterEach _ r)
  have each := orderly.unregisterEach r.inOrder (fun p hp => perm.mem_iff.mp hp)
    ((perm.map _).nodup_iff.mpr orderly.names)
  rw [← names_eq] at each
  refine ⟨fun r' p handedOver => ⟨handedOver.lived, fun r₁ q => handedOver.unique⟩,
    fun p => mem_after_iff_started, fun name plugin e => register_error, fun p hp => ?_, empty, ?_,
    perm, orderly.inOrder_sorted, each⟩
  · rw [orderly.unregister_eq hp]
    exact ⟨rfl, fun q => orderly.without_eq hp, fun b => by simp [without]⟩
  · refine List.eq_nil_iff_forall_not_mem.mpr fun b hb => ?_
    obtain ⟨p, hp, -⟩ := (swept.bound b).mp hb
    exact absurd hp (by simp [empty])

end Answers

end Registry
end PipelineRunner
