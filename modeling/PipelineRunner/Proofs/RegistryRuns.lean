import Mathlib.Data.List.Induction
import Mathlib.Data.List.Nodup
import Mathlib.Logic.Relation
import PipelineRunner.Plugin.Builtin
import PipelineRunner.World

/-! Requests to a registry. Whatever is asked, the registry only ever takes two kinds of steps: it is
handed a plugin, or a name is removed. What both of them keep holds of every registry that has grown
out of the empty one, who is registered can be told from the requests alone, and the table of
commands agrees with it. -/

namespace PipelineRunner
namespace Registry

/-- What can be asked of a registry. -/
inductive Request where
  | register (name : String) (plugin : Plugin)
  | registerBuiltins (services : Services)
  | unregister (name : String)
  | unregisterAll
  | invoke (plugin method : String) (params : StepParams)

/-- The registry when a request has been answered. A call leaves it as it is. -/
def serve (r : Registry) : Request → Registry
  | .register name plugin => (r.register name plugin).1
  | .registerBuiltins services => (r.registerBuiltins services).1
  | .unregister name => (r.unregister name).1
  | .unregisterAll => r.unregisterAll.1
  | .invoke .. => r

/-- The registry that was empty at first, when the requests have been answered. -/
def after (requests : List Request) : Registry := requests.foldl serve empty

/-- While it serves a request the registry comes to be `r'`, and then is handed a plugin. -/
inductive Hands (r : Registry) : Request → Registry → Registration → Prop
  | register (name : String) (plugin : Plugin) :
    Hands r (.register name plugin) r ⟨name, r.handed, plugin⟩
  | shell (services : Services) :
    Hands r (.registerBuiltins services) r
      ⟨"shell", r.handed, ShellPlugin.plugin (some services)⟩
  | scm (services : Services) (r' : Registry)
      (begun : r.register "shell" (ShellPlugin.plugin (some services)) = (r', .ok ())) :
    Hands r (.registerBuiltins services) r'
      ⟨"scm", r'.handed, Checkout.plugin (some services)⟩

/-- A request removes whoever has the name. -/
def Removes (name : String) : Request → Prop
  | .unregister other => name = other
  | .unregisterAll => True
  | _ => False

/-- One of the requests handed the plugin over while the registry was `r'`. -/
def HandedOver (requests : List Request) (r' : Registry) (p : Registration) : Prop :=
  ∃ before request later, requests = before ++ request :: later ∧
    (after before).Hands request r' p

/-- The plugin was handed over and taken, and no request since has removed its name. -/
def Registered (requests : List Request) (p : Registration) : Prop :=
  ∃ before request later r', requests = before ++ request :: later ∧
    (after before).Hands request r' p ∧ (r'.register p.name p.plugin).2 = .ok () ∧
    ∀ request ∈ later, ¬ Removes p.name request

variable {r r' r'' : Registry} {name : String} {plugin : Plugin} {p : Registration}

section Steps

/-- What becomes of a registry that is handed a plugin, and the answer. -/
inductive Taken (r : Registry) (name : String) (plugin : Plugin) :
    Registry × Except RegistryError Unit → Prop
  | known (known : ∃ p ∈ r.plugins, p.name = name) :
    Taken r name plugin ({ r with handed := r.handed + 1 }, .error (.alreadyRegistered name))
  | failed (cause : Cause) (free : ∀ p ∈ r.plugins, p.name ≠ name)
      (fails : plugin.startFailure = some cause) :
    Taken r name plugin
      ({ r with handed := r.handed + 1, diary := .failed r.handed name :: r.diary },
        .error (.startFailed name cause))
  | conflict (existing : Binding) (free : ∀ p ∈ r.plugins, p.name ≠ name)
      (starts : plugin.startFailure = none) (bound : existing ∈ r.commands) :
    Taken r name plugin
      ({ r with
          handed := r.handed + 1
          diary := .stopped r.handed name plugin.builtin :: .started r.handed name :: r.diary },
        .error (.commandConflict existing.command name existing.plugin))
  | entered (free : ∀ p ∈ r.plugins, p.name ≠ name) (starts : plugin.startFailure = none)
      (unbound : ∀ m ∈ plugin.methods, ∀ b ∈ r.commands, b.command ≠ m.1) :
    Taken r name plugin
      ({ r with
          handed := r.handed + 1
          plugins := r.plugins ++ [⟨name, r.handed, plugin⟩]
          commands := r.commands ++ bindingsOf name plugin
          diary := .started r.handed name :: r.diary }, .ok ())

theorem find?_isSome : (r.find? name).isSome ↔ ∃ p ∈ r.plugins, p.name = name := by
  simp [find?]

theorem find?_eq_none : r.find? name = none ↔ ∀ p ∈ r.plugins, p.name ≠ name := by
  simp [find?]

theorem of_find? (found : r.find? name = some p) : p ∈ r.plugins ∧ p.name = name := by
  refine ⟨List.mem_of_find?_eq_some found, ?_⟩
  simpa using List.find?_some found

theorem of_resolve {command : String} {b : Binding} (resolved : r.resolve command = some b) :
    b ∈ r.commands ∧ b.command = command := by
  refine ⟨List.mem_of_find?_eq_some resolved, ?_⟩
  simpa using List.find?_some resolved

theorem of_reach {method : String} (reached : r.reach name method = .ok p) :
    p ∈ r.plugins ∧ p.name = name := by
  unfold reach at reached
  split at reached
  next => cases reached
  next q found =>
    split at reached
    · cases reached
      exact of_find? found
    · cases reached

theorem of_conflict? {b : Binding} (conflict : r.conflict? plugin = some b) : b ∈ r.commands := by
  obtain ⟨_, _, resolved⟩ := List.exists_of_findSome?_eq_some conflict
  exact (of_resolve resolved).1

theorem conflict?_eq_none :
    r.conflict? plugin = none ↔ ∀ m ∈ plugin.methods, ∀ b ∈ r.commands, b.command ≠ m.1 := by
  simp [conflict?, resolve]

/-- Without its plugin, a method is out of reach; others are as they were. -/
theorem reach_unregister (r : Registry) (name plugin method : String) :
    (r.unregister name).1.reach plugin method =
      if name == plugin then .error (.unknownPlugin plugin) else r.reach plugin method := by
  unfold unregister
  split
  next unknown =>
    split
    next same =>
      obtain rfl : name = plugin := by simpa using same
      simp only [reach, unknown]
    next => rfl
  next entry found =>
    have left : (r.plugins.filter fun p => p.name != name).find? (fun p => p.name == plugin) =
        if name == plugin then none else r.find? plugin := by
      rw [List.find?_filter]
      split
      next same =>
        obtain rfl : name = plugin := by simpa using same
        simp
      next other =>
        refine congrArg (List.find? · r.plugins) (funext fun p => ?_)
        grind
    simp only [reach, find?, left]
    cases same : name == plugin <;> rfl

theorem taken (r : Registry) (name : String) (plugin : Plugin) :
    Taken r name plugin (r.register name plugin) := by
  have sameName : ∀ handed, ({ r with handed } : Registry).find? name = r.find? name := fun _ => rfl
  have sameConflict : ∀ handed,
      ({ r with handed } : Registry).conflict? plugin = r.conflict? plugin := fun _ => rfl
  simp only [register, sameName, sameConflict]
  by_cases known : (r.find? name).isSome
  · rw [if_pos known]
    exact .known (find?_isSome.mp known)
  · rw [if_neg known]
    have free := find?_eq_none.mp (Option.not_isSome_iff_eq_none.mp known)
    cases starts : plugin.startFailure with
    | some cause => exact .failed cause free starts
    | none =>
      cases conflict : r.conflict? plugin with
      | some existing => exact .conflict existing free starts (of_conflict? conflict)
      | none => exact .entered free starts (conflict?_eq_none.mp conflict)

/-- What becomes of a registry from which a name is removed, and the answer. -/
inductive Removed (r : Registry) (name : String) : Registry × Except RegistryError Unit → Prop
  | unknown (free : ∀ p ∈ r.plugins, p.name ≠ name) :
    Removed r name (r, .error (.unknownPlugin name))
  | stopped (p : Registration) (registered : p ∈ r.plugins) (named : p.name = name) :
    Removed r name
      ({ r with
          plugins := r.plugins.filter fun p => p.name != name
          commands := r.commands.filter fun b => b.plugin != name
          diary := .stopped p.serial name p.plugin.builtin :: r.diary },
        match p.plugin.stopFailure with
        | some cause => .error (.stopFailed name cause)
        | none => .ok ())

theorem removed (r : Registry) (name : String) : Removed r name (r.unregister name) := by
  unfold unregister
  split
  next unknown => exact .unknown (find?_eq_none.mp unknown)
  next p found => exact .stopped p (of_find? found).1 (of_find? found).2

/-- What the registry does at a time. -/
inductive Step : Registry → Registry → Prop
  | hand (r : Registry) (name : String) (plugin : Plugin) : Step r (r.register name plugin).1
  | remove (r : Registry) (name : String) : Step r (r.unregister name).1

/-- One registry grows out of another step by step. -/
abbrev Leads : Registry → Registry → Prop := Relation.ReflTransGen Step

theorem leads_register (r : Registry) (name : String) (plugin : Plugin) :
    Leads r (r.register name plugin).1 := .single (.hand r name plugin)

theorem leads_registerBuiltins (r : Registry) (services : Services) :
    Leads r (r.registerBuiltins services).1 := by
  have first := leads_register r "shell" (ShellPlugin.plugin (some services))
  unfold registerBuiltins
  split
  next begun => exact (begun ▸ first).trans (leads_register _ "scm" _)
  next begun => exact begun ▸ first

theorem leads_unregisterEach (names : List String) (r : Registry) :
    Leads r (r.unregisterEach names).1 := by
  induction names generalizing r with
  | nil => exact .refl
  | cons name rest ih => exact .head (.remove r name) (ih (r.unregister name).1)

theorem leads_serve (r : Registry) (request : Request) : Leads r (r.serve request) := by
  cases request with
  | register name plugin => exact leads_register r name plugin
  | registerBuiltins services => exact leads_registerBuiltins r services
  | unregister name => exact .single (.remove r name)
  | unregisterAll => exact leads_unregisterEach _ r
  | invoke => exact .refl

theorem leads_serveAll (requests : List Request) (r : Registry) :
    Leads r (requests.foldl serve r) := by
  induction requests generalizing r with
  | nil => exact .refl
  | cons request rest ih => exact (leads_serve r request).trans (ih _)

theorem leads_after (requests : List Request) : Leads empty (after requests) :=
  leads_serveAll requests empty

/-- Serving a request leads to where a plugin is handed over, and from its reception onwards. -/
theorem Hands.leads {request : Request} (hands : r.Hands request r' p) :
    Leads r r' ∧ Leads (r'.register p.name p.plugin).1 (r.serve request) := by
  cases hands with
  | register name plugin => exact ⟨.refl, .refl⟩
  | shell services =>
    refine ⟨.refl, ?_⟩
    simp only [serve, registerBuiltins]
    split
    next r' begun => exact begun ▸ leads_register r' "scm" _
    next r' e begun => rw [begun]
  | scm services r' begun =>
    have first := leads_register r "shell" (ShellPlugin.plugin (some services))
    rw [begun] at first
    refine ⟨first, ?_⟩
    simp only [serve, registerBuiltins, begun]
    exact .refl

theorem Hands.serial_eq {request : Request} (hands : r.Hands request r' p) :
    p.serial = r'.handed := by
  cases hands <;> rfl

theorem after_concat (requests : List Request) (request : Request) :
    after (requests ++ [request]) = (after requests).serve request := by
  simp [after]

theorem after_split (before later : List Request) (request : Request) :
    after (before ++ request :: later) = later.foldl serve ((after before).serve request) := by
  simp [after]

end Steps

section Orderly

/-- What holds of a registry at all times: names and numbers tell the plugins apart, and the
bindings are those of the plugins, with one provider for a command. -/
structure Orderly (r : Registry) : Prop where
  names : (r.plugins.map (·.name)).Nodup
  serials : (r.plugins.map (·.serial)).Nodup
  below : ∀ p ∈ r.plugins, p.serial < r.handed
  bound : ∀ b, b ∈ r.commands ↔
    ∃ p ∈ r.plugins, p.name = b.plugin ∧ (b.command, b.method) ∈ p.plugin.methods
  single : ∀ b ∈ r.commands, ∀ b' ∈ r.commands, b.command = b'.command → b.plugin = b'.plugin

theorem orderly_empty : empty.Orderly :=
  ⟨List.nodup_nil, List.nodup_nil, by simp [empty], by simp [empty], by simp [empty]⟩

theorem mem_bindingsOf {b : Binding} :
    b ∈ bindingsOf name plugin ↔ name = b.plugin ∧ (b.command, b.method) ∈ plugin.methods := by
  obtain ⟨command, owner, method⟩ := b
  constructor
  · intro mem
    obtain ⟨⟨c, m⟩, advertised, same⟩ := List.mem_map.mp mem
    cases same
    exact ⟨rfl, advertised⟩
  · rintro ⟨rfl, advertised⟩
    exact List.mem_map.mpr ⟨_, advertised, rfl⟩

theorem Orderly.eq_of_name (orderly : r.Orderly) {p q : Registration} (hp : p ∈ r.plugins)
    (hq : q ∈ r.plugins) (same : p.name = q.name) : p = q :=
  List.inj_on_of_nodup_map orderly.names hp hq same

theorem Orderly.eq_of_serial (orderly : r.Orderly) {p q : Registration} (hp : p ∈ r.plugins)
    (hq : q ∈ r.plugins) (same : p.serial = q.serial) : p = q :=
  List.inj_on_of_nodup_map orderly.serials hp hq same

/-- A registry that differs only in its diary and in how many plugins it has been handed. -/
theorem Orderly.of_same (orderly : r.Orderly) (plugins : r'.plugins = r.plugins)
    (commands : r'.commands = r.commands) (handed : r.handed ≤ r'.handed) : r'.Orderly := by
  refine ⟨?_, ?_, ?_, ?_, ?_⟩
  · exact plugins ▸ orderly.names
  · exact plugins ▸ orderly.serials
  · exact plugins ▸ fun p hp => Nat.lt_of_lt_of_le (orderly.below p hp) handed
  · exact plugins ▸ commands ▸ orderly.bound
  · exact commands ▸ orderly.single

theorem Orderly.register (orderly : r.Orderly) (name : String) (plugin : Plugin) :
    (r.register name plugin).1.Orderly := by
  have outcome := taken r name plugin
  generalize r.register name plugin = answer at outcome
  cases outcome with
  | known | failed | conflict => exact orderly.of_same rfl rfl (Nat.le_succ _)
  | entered free starts unbound =>
    refine ⟨?_, ?_, ?_, ?_, ?_⟩
    · simpa [List.nodup_append, orderly.names] using free
    · have fresh : ∀ p ∈ r.plugins, p.serial ≠ r.handed := fun p hp =>
        Nat.ne_of_lt (orderly.below p hp)
      simpa [List.nodup_append, orderly.serials] using fresh
    · intro p hp
      rcases List.mem_append.mp hp with hp | hp
      · exact Nat.lt_succ_of_lt (orderly.below p hp)
      · obtain rfl := List.mem_singleton.mp hp
        exact Nat.lt_succ_self _
    · intro b
      simp only [List.mem_append, List.mem_singleton, orderly.bound, mem_bindingsOf, or_and_right,
        exists_or, exists_eq_left]
    · -- A command that the plugin brings was bound to nobody.
      intro b hb b' hb' same
      rcases List.mem_append.mp hb with hb | hb <;> rcases List.mem_append.mp hb' with hb' | hb'
      · exact orderly.single b hb b' hb' same
      · exact absurd same (unbound _ (mem_bindingsOf.mp hb').2 b hb)
      · exact absurd same.symm (unbound _ (mem_bindingsOf.mp hb).2 b' hb')
      · exact (mem_bindingsOf.mp hb).1.symm.trans (mem_bindingsOf.mp hb').1

theorem Orderly.unregister (orderly : r.Orderly) (name : String) :
    (r.unregister name).1.Orderly := by
  have outcome := removed r name
  generalize r.unregister name = answer at outcome
  cases outcome with
  | unknown => exact orderly
  | stopped p =>
    refine ⟨?_, ?_, ?_, ?_, ?_⟩
    · exact orderly.names.sublist (List.filter_sublist.map _)
    · exact orderly.serials.sublist (List.filter_sublist.map _)
    · exact fun p hp => orderly.below p (List.mem_filter.mp hp).1
    · intro b
      simp only [List.mem_filter, orderly.bound, bne_iff_ne]
      constructor
      · rintro ⟨⟨p, hp, named, advertised⟩, other⟩
        exact ⟨p, ⟨hp, named ▸ other⟩, named, advertised⟩
      · rintro ⟨p, ⟨hp, other⟩, named, advertised⟩
        exact ⟨⟨p, hp, named, advertised⟩, named ▸ other⟩
    · intro b hb b' hb'
      exact orderly.single b (List.mem_filter.mp hb).1 b' (List.mem_filter.mp hb').1

theorem Orderly.step (orderly : r.Orderly) (step : Step r r') : r'.Orderly := by
  cases step with
  | hand name plugin => exact orderly.register name plugin
  | remove name => exact orderly.unregister name

theorem Orderly.leads (orderly : r.Orderly) (leads : Leads r r') : r'.Orderly := by
  induction leads with
  | refl => exact orderly
  | tail _ step ih => exact ih.step step

theorem orderly_after (requests : List Request) : (after requests).Orderly :=
  orderly_empty.leads (leads_after requests)

end Orderly

section Members

theorem mem_register :
    p ∈ (r.register name plugin).1.plugins ↔ p ∈ r.plugins ∨
      ((r.register name plugin).2 = .ok () ∧ p = ⟨name, r.handed, plugin⟩) := by
  have outcome := taken r name plugin
  generalize r.register name plugin = answer at outcome
  cases outcome <;> simp

theorem mem_unregister :
    p ∈ (r.unregister name).1.plugins ↔ p ∈ r.plugins ∧ p.name ≠ name := by
  have outcome := removed r name
  generalize r.unregister name = answer at outcome
  cases outcome with
  | unknown free => exact ⟨fun hp => ⟨hp, free p hp⟩, And.left⟩
  | stopped => simp

theorem mem_unregisterEach (names : List String) (r : Registry) :
    p ∈ (r.unregisterEach names).1.plugins ↔ p ∈ r.plugins ∧ p.name ∉ names := by
  induction names generalizing r with
  | nil => simp [unregisterEach]
  | cons name rest ih =>
    rw [show (r.unregisterEach (name :: rest)).1 = ((r.unregister name).1.unregisterEach rest).1
      from rfl, ih, mem_unregister]
    simp [and_assoc]

theorem mem_names : name ∈ r.names ↔ ∃ p ∈ r.plugins, p.name = name := by
  simp [names]

theorem plugins_unregisterAll (r : Registry) : r.unregisterAll.1.plugins = [] := by
  refine List.eq_nil_iff_forall_not_mem.mpr fun p hp => ?_
  obtain ⟨hp, other⟩ := (mem_unregisterEach r.names r).mp hp
  exact other (mem_names.mpr ⟨p, hp, rfl⟩)

theorem mem_registerBuiltins (services : Services) :
    p ∈ (r.registerBuiltins services).1.plugins ↔ p ∈ r.plugins ∨
      ∃ r', r.Hands (.registerBuiltins services) r' p ∧
        (r'.register p.name p.plugin).2 = .ok () := by
  have first : p ∈ (r.register "shell" (ShellPlugin.plugin (some services))).1.plugins ↔ _ :=
    mem_register
  unfold registerBuiltins
  split
  next r' begun =>
    simp only [begun, true_and] at first
    rw [mem_register, first, or_assoc]
    refine or_congr_right ⟨?_, ?_⟩
    · rintro (rfl | ⟨accepted, rfl⟩)
      · exact ⟨r, .shell services, congrArg Prod.snd begun⟩
      · exact ⟨r', .scm services r' begun, accepted⟩
    · rintro ⟨_, hands, accepted⟩
      cases hands with
      | shell => exact .inl rfl
      | scm _ r'' begun' =>
        obtain rfl := congrArg Prod.fst (begun.symm.trans begun')
        exact .inr ⟨accepted, rfl⟩
  next r' e begun =>
    simp only [begun, reduceCtorEq, false_and, or_false] at first
    rw [first, iff_self_or]
    rintro ⟨_, hands, accepted⟩
    cases hands with
    | shell => exact absurd (accepted.symm.trans (congrArg Prod.snd begun)) (by simp)
    | scm _ r'' begun' => exact absurd (congrArg Prod.snd (begun.symm.trans begun')) (by simp)

/-- Who is registered behind a request: those that were and that it does not remove, and those that
it brings. -/
theorem mem_serve (request : Request) :
    p ∈ (r.serve request).plugins ↔ (p ∈ r.plugins ∧ ¬ Removes p.name request) ∨
      ∃ r', r.Hands request r' p ∧ (r'.register p.name p.plugin).2 = .ok () := by
  cases request with
  | register name plugin =>
    simp only [serve, mem_register, Removes, not_false_eq_true, and_true]
    refine or_congr_right ⟨?_, ?_⟩
    · rintro ⟨accepted, rfl⟩
      exact ⟨r, .register name plugin, accepted⟩
    · rintro ⟨_, hands, accepted⟩
      cases hands
      exact ⟨accepted, rfl⟩
  | registerBuiltins services =>
    simp only [Removes, not_false_eq_true, and_true]
    exact mem_registerBuiltins services
  | unregister name =>
    have brings : ¬ ∃ r', r.Hands (.unregister name) r' p ∧
        (r'.register p.name p.plugin).2 = .ok () := by rintro ⟨_, ⟨⟩, -⟩
    simp only [serve, mem_unregister, Removes, brings, or_false, ne_eq]
  | unregisterAll =>
    have brings : ¬ ∃ r', r.Hands .unregisterAll r' p ∧
        (r'.register p.name p.plugin).2 = .ok () := by rintro ⟨_, ⟨⟩, -⟩
    simp [serve, plugins_unregisterAll, Removes, brings]
  | invoke plugin method params =>
    have brings : ¬ ∃ r', r.Hands (.invoke plugin method params) r' p ∧
        (r'.register p.name p.plugin).2 = .ok () := by rintro ⟨_, ⟨⟩, -⟩
    simp [serve, Removes, brings]

theorem registered_concat (requests : List Request) (request : Request) :
    Registered (requests ++ [request]) p ↔
      (Registered requests p ∧ ¬ Removes p.name request) ∨
      ∃ r', (after requests).Hands request r' p ∧ (r'.register p.name p.plugin).2 = .ok () := by
  constructor
  · rintro ⟨before, entry, later, r', split, hands, accepted, kept⟩
    rcases List.eq_nil_or_concat' later with rfl | ⟨init, last, rfl⟩
    · obtain ⟨rfl, rfl⟩ := List.append_singleton_inj.mp split
      exact .inr ⟨r', hands, accepted⟩
    · rw [← List.cons_append, ← List.append_assoc] at split
      obtain ⟨rfl, rfl⟩ := List.append_singleton_inj.mp split
      refine .inl ⟨⟨before, entry, init, r', rfl, hands, accepted, ?_⟩, ?_⟩
      · exact fun q hq => kept q (List.mem_append_left _ hq)
      · exact kept _ (List.mem_append_right _ List.mem_cons_self)
  · rintro (⟨⟨before, entry, later, r', rfl, hands, accepted, kept⟩, keeps⟩ |
      ⟨r', hands, accepted⟩)
    · refine ⟨before, entry, later ++ [request], r', by simp, hands, accepted, ?_⟩
      intro q hq
      rcases List.mem_append.mp hq with hq | hq
      · exact kept q hq
      · exact List.mem_singleton.mp hq ▸ keeps
    · exact ⟨requests, request, [], r', rfl, hands, accepted, by simp⟩

/-- The plugins of a registry are those that its requests have registered. -/
theorem mem_after (requests : List Request) :
    p ∈ (after requests).plugins ↔ Registered requests p := by
  induction requests using List.reverseRecOn with
  | nil => simp [after, empty, Registered]
  | append_singleton requests request ih =>
    rw [after_concat, mem_serve, registered_concat, ih]

end Members

end Registry

/-! ### The table of commands

Whatever has been asked of the registry, the commands are those of the plugins that are registered,
each has one provider, and a call of the provider of a command reaches it. -/

namespace World

/-- The world when a request to its registry has been answered. -/
def serve (w : World) : Registry.Request → World
  | .register name plugin => (w.changeRegistry (·.register name plugin)).1
  | .registerBuiltins services => (w.changeRegistry (·.registerBuiltins services)).1
  | .unregister name => (w.changeRegistry (·.unregister name)).1
  | .unregisterAll => (w.changeRegistry (·.unregisterAll)).1
  | .invoke plugin method params => (w.invoke plugin method params).1

/-- A registered plugin carries out a call of a method. -/
def call (w : World) (p : Registration) (method : String) (params : StepParams) :
    World × Except String (Except Cause (Option String)) :=
  complete {} (p.plugin.invoke method params)
    (w.note {} (.called p.name method params p.plugin.builtin))

section Frame

variable (w : World)

theorem registry_noteRetired (events : List PluginEvent) :
    (w.noteRetired events).registry = w.registry := by
  induction events with
  | nil => rfl
  | cons event rest ih => cases event <;> exact ih

theorem registry_changeRegistry {β : Type} (change : Registry → Registry × β) :
    (w.changeRegistry change).1.registry = (change w.registry).1 :=
  registry_noteRetired _ _

/-- A piece of work cannot get at the registry. -/
theorem registry_complete {α : Type} (place : Place) (work : Work α) :
    (complete place work w).1.registry = w.registry := by
  unfold complete
  induction work generalizing w with
  | done | crash => rfl
  | sleep ms rest ih => exact ih () _
  | log workflow level message rest ih | remark what rest ih | writeFiles files rest ih =>
    exact ih _
  | count counter rest ih | readFiles rest ih => exact ih _ _

/-- A call that the registry lets through is a call of the plugin that it reaches, and nothing is
wrong with it but what the plugin makes wrong. -/
theorem invoke_eq {plugin method : String} {p : Registration}
    (reached : w.registry.reach plugin method = .ok p) (params : StepParams) :
    w.invoke plugin method params = ((w.call p method params).1,
      (w.call p method params).2.map (·.mapError (.invocation plugin method))) := by
  obtain rfl := (Registry.of_reach reached).2
  simp only [invoke, reached, call]
  generalize complete {} (p.plugin.invoke method params)
    (w.note {} (.called p.name method params p.plugin.builtin)) = answer
  rcases answer with ⟨w', _ | _ | _⟩ <;> rfl

theorem registry_invoke (plugin method : String) (params : StepParams) :
    (w.invoke plugin method params).1.registry = w.registry := by
  cases reached : w.registry.reach plugin method with
  | error e => simp [invoke, reached]
  | ok p => rw [w.invoke_eq reached params, call, registry_complete]; rfl

theorem registry_serve (request : Registry.Request) :
    (w.serve request).registry = w.registry.serve request := by
  cases request with
  | invoke plugin method params => exact registry_invoke w plugin method params
  | _ => exact registry_changeRegistry w _

theorem registry_serveAll (requests : List Registry.Request) :
    (requests.foldl serve w).registry = requests.foldl Registry.serve w.registry := by
  induction requests generalizing w with
  | nil => rfl
  | cons request rest ih => rw [List.foldl_cons, ih, registry_serve, List.foldl_cons]

end Frame

end World

namespace Registry

variable {r : Registry} {p : Registration} {b : Binding}

theorem Orderly.find?_eq (orderly : r.Orderly) (registered : p ∈ r.plugins) :
    r.find? p.name = some p := by
  obtain ⟨q, found⟩ := Option.isSome_iff_exists.mp (find?_isSome.mpr ⟨p, registered, rfl⟩)
  rw [found, orderly.eq_of_name (of_find? found).1 registered (of_find? found).2]

/-- A binding leads to the plugin that brought it. -/
theorem Orderly.reach_eq (orderly : r.Orderly) (registered : p ∈ r.plugins)
    (named : p.name = b.plugin) (advertised : (b.command, b.method) ∈ p.plugin.methods) :
    r.reach b.plugin b.method = .ok p := by
  have serves : (p.plugin.methods.any fun m => m.2 == b.method) = true :=
    List.any_eq_true.mpr ⟨_, advertised, beq_self_eq_true _⟩
  rw [reach, ← named, orderly.find?_eq registered]
  exact if_pos serves

/-- Who advertises each of its commands once has one binding for each. -/
theorem Orderly.eq_of_command (orderly : r.Orderly)
    (once : ∀ p ∈ r.plugins, (p.plugin.methods.map (·.1)).Nodup) {b b' : Binding}
    (hb : b ∈ r.commands) (hb' : b' ∈ r.commands) (same : b.command = b'.command) : b = b' := by
  have owner := orderly.single b hb b' hb' same
  obtain ⟨p, hp, named, advertised⟩ := (orderly.bound b).mp hb
  obtain ⟨p', hp', named', advertised'⟩ := (orderly.bound b').mp hb'
  obtain rfl := orderly.eq_of_name hp hp' (named.trans (owner.trans named'.symm))
  have method := List.inj_on_of_nodup_map (once p hp) advertised advertised' same
  obtain ⟨command, plugin, _⟩ := b
  obtain ⟨command', plugin', _⟩ := b'
  obtain ⟨rfl, rfl⟩ := Prod.mk.inj method
  exact congrArg (Binding.mk command · _) owner

/-- The commands are those that the registered plugins have advertised. No command has two
providers, nor two bindings if no plugin advertises a command twice. Who a command resolves to is
registered and is reached by a call of the method, which fails only as the plugin fails. -/
theorem commands_follow_plugins (world : World) (requests : List Request) :
    let w := requests.foldl World.serve { world with registry := empty }
    (∀ b, b ∈ w.registry.commands ↔
      ∃ p, Registered requests p ∧ p.name = b.plugin ∧
        (b.command, b.method) ∈ p.plugin.methods) ∧
    (∀ b ∈ w.registry.commands, ∀ b' ∈ w.registry.commands, b.command = b'.command →
      b.plugin = b'.plugin ∧
        ((∀ p, Registered requests p → (p.plugin.methods.map (·.1)).Nodup) → b = b')) ∧
    ∀ command b, w.registry.resolve command = some b →
      ∃ p, Registered requests p ∧ p.name = b.plugin ∧ (command, b.method) ∈ p.plugin.methods ∧
        w.registry.reach b.plugin b.method = .ok p ∧
        ∀ params,
          w.invoke b.plugin b.method params = ((w.call p b.method params).1,
            (w.call p b.method params).2.map (·.mapError (.invocation b.plugin b.method))) ∧
          (∀ name, (w.invoke b.plugin b.method params).2 ≠ .ok (.error (.unknownPlugin name))) ∧
          ∀ name method,
            (w.invoke b.plugin b.method params).2 ≠ .ok (.error (.unknownMethod name method)) := by
  intro w
  have same : w.registry = after requests := World.registry_serveAll _ requests
  have orderly : w.registry.Orderly := same ▸ orderly_after requests
  have registered : ∀ p, p ∈ w.registry.plugins ↔ Registered requests p := fun p =>
    same ▸ mem_after requests
  refine ⟨fun b => ?_, fun b hb b' hb' command => ⟨?_, fun once => ?_⟩, fun command b resolved => ?_⟩
  · simp only [orderly.bound, registered]
  · exact orderly.single b hb b' hb' command
  · exact orderly.eq_of_command (fun p hp => once p ((registered p).mp hp)) hb hb' command
  · obtain ⟨bound, rfl⟩ := of_resolve resolved
    obtain ⟨p, hp, named, advertised⟩ := (orderly.bound b).mp bound
    have reached := orderly.reach_eq hp named advertised
    refine ⟨p, (registered p).mp hp, named, advertised, reached, fun params => ?_⟩
    have invoked := w.invoke_eq reached params
    refine ⟨invoked, fun name unknown => ?_, fun name method unknown => ?_⟩ <;>
    · rw [invoked] at unknown
      generalize (w.call p b.method params).2 = answer at unknown
      rcases answer with _ | _ | _ <;> simp [Except.map, Except.mapError] at unknown

end Registry
end PipelineRunner
