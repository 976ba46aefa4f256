import Mathlib.Data.List.DropRight
import PipelineRunner.Container.Lease
import PipelineRunner.Proofs.ContainerPlacement
import PipelineRunner.Proofs.Scheduling

/-! By what name an image goes. A reference whose last part has neither a tag nor a digest is
given the default tag, once: a second time changes nothing. So a stage that names its image and the
manager that fetches it mean the same one, in all orders to the runtime, in the line of the log that
tells of the container, and in the error that there is none. -/

namespace PipelineRunner

/-! ### References -/

namespace Image

/-- The part of a reference behind its last slash, or all of it where there is none. -/
def EndsIn (cs segment : List Char) : Prop :=
  '/' ∉ segment ∧ (cs = segment ∨ ∃ before, cs = before ++ '/' :: segment)

variable {cs segment : List Char} {image : String}

theorem endsIn_lastSegment (cs : List Char) : EndsIn cs (lastSegment cs) := by
  have whole : cs.rdropWhile (· != '/') ++ lastSegment cs = cs :=
    List.rdropWhile_append_rtakeWhile
  refine ⟨fun mem => by simpa using List.mem_rtakeWhile_imp mem, ?_⟩
  rcases List.eq_nil_or_concat (cs.rdropWhile (· != '/')) with nothing | ⟨before, last, some⟩
  · rw [nothing] at whole
    exact .inl whole.symm
  · have slash := List.rdropWhile_last_not (· != '/') cs (by simp [some])
    obtain rfl : last = '/' := by simpa [some] using slash
    refine .inr ⟨before, ?_⟩
    rw [some, List.concat_eq_append, List.append_assoc] at whole
    exact whole.symm

theorem EndsIn.eq_lastSegment (ends : EndsIn cs segment) : segment = lastSegment cs := by
  obtain ⟨plain, split⟩ := ends
  have kept : ∀ c ∈ segment.reverse, (c != '/') = true := by
    intro c mem
    rw [bne_iff_ne]
    rintro rfl
    exact plain (List.mem_reverse.mp mem)
  rcases split with rfl | ⟨before, rfl⟩
  · exact (List.rtakeWhile_eq_self_iff.mpr fun c mem => kept c (List.mem_reverse.mpr mem)).symm
  · rw [lastSegment, List.reverse_append, List.reverse_cons, List.append_assoc,
      List.takeWhile_append_of_pos kept]
    simp

theorem existsUnique_endsIn (cs : List Char) : ∃! segment, EndsIn cs segment :=
  ⟨lastSegment cs, endsIn_lastSegment cs, fun _ ends => ends.eq_lastSegment⟩

theorem EndsIn.isTagged_iff (ends : EndsIn cs segment) :
    isTagged cs = true ↔ ':' ∈ segment ∨ '@' ∈ segment := by
  simp [isTagged, ends.eq_lastSegment, and_or_left, exists_or]

/-- A reference that has a tag or a digest stays as it is; any other is given the default tag. -/
theorem EndsIn.normalize_eq (ends : EndsIn image.toList segment) :
    normalize image = if ':' ∈ segment ∨ '@' ∈ segment then image else image ++ ":latest" := by
  unfold normalize
  by_cases tagged : ':' ∈ segment ∨ '@' ∈ segment
  · rw [if_pos (ends.isTagged_iff.mpr tagged), if_pos tagged]
  · rw [if_neg (mt ends.isTagged_iff.mp tagged), if_neg tagged, String.append_assoc]
    rfl

end Image

/-- The image that a stage runs in is not given a second tag. -/
theorem Agent.normalize_image {agent : Agent} {image : String}
    (docker : agent.image? = some image) :
    Image.normalize image = image := by
  obtain ⟨declared, -, rfl⟩ := image?_eq_some.mp docker
  exact Image.normalize_normalize declared

/-! ### Acquisitions -/

/-- `w'` comes from `w` with no image told of but this one, if any. -/
def World.Names (image? : Option String) (w w' : World) : Prop :=
  ∃ news : List Record, w'.history = news.reverse ++ w.history ∧
    ∀ r ∈ news, ∀ image, r.event.image? = some image → image? = some image

namespace World

variable {image? : Option String} {w w' w'' : World} {place : Place} {event : Event}
  {events : List Event}

theorem Names.trans (names : w.Names image? w') (names' : w'.Names image? w'') :
    w.Names image? w'' := by
  obtain ⟨xs, hx, px⟩ := names
  obtain ⟨ys, hy, py⟩ := names'
  refine ⟨xs ++ ys, by simp [hy, hx], fun r mem => ?_⟩
  exact (List.mem_append.mp mem).elim (px r) (py r)

theorem Notes.names (notes : w.Notes place events w')
    (told : ∀ event ∈ events, ∀ image, event.image? = some image → image? = some image) :
    w.Names image? w' := by
  obtain ⟨news, noted, -, -⟩ := id notes
  refine ⟨news, noted, fun r mem image named => ?_⟩
  have notable : r.event.isAside = false := by
    cases event : r.event <;> simp_all [Event.image?, Event.isAside]
  exact told r.event (notes.mem noted mem notable) image named

theorem names_still (same : w'.history = w.history) : w.Names image? w' := by
  have nothing : w.Notes {} [] w' := .nothing same
  exact nothing.names (by simp)

theorem names_note (told : ∀ image, event.image? = some image → image? = some image) :
    w.Names image? (w.note place event) :=
  ⟨[⟨w.clock, place, event⟩], rfl, by simpa using told⟩

theorem names_perform {α : Type} (work : Work α) (w : World) :
    w.Names image? (perform place work w).1 :=
  (notes_perform work w).names (by simp)

end World

theorem Cleanup.names_stepFirst {image? : Option String} {runtime : ContainerRuntime}
    {w w' : World} {cleanups after : List Cleanup}
    (stepped : stepFirst runtime w cleanups = some (w', after)) : w.Names image? w' := by
  obtain ⟨i, c, c', -, step, -⟩ := step_of_stepFirst stepped
  have followed {progress : World × Progress (Except Cause Unit)}
      (follows : c.follow progress = (w', c')) (so_far : w.Names image? progress.1) :
      w.Names image? w' := by
    obtain ⟨w₁, progress⟩ := progress
    cases progress <;> cases follows
    · exact so_far.trans (World.names_note (by simp [Event.image?]))
    · exact so_far
    · exact so_far
  rcases follow_of_step step with ⟨-, begun⟩ | ⟨wait, -, went_on⟩
  · exact followed begun
      ((World.names_note (by simp [Event.image?])).trans (World.names_perform _ _))
  · exact followed went_on (World.names_perform _ _)

namespace ContainerManager

variable {image? : Option String} {m : ContainerManager}

/-- What goes on in the background stops containers, whatever their image. -/
theorem names_pass (ms : Nat) (m : ContainerManager) :
    m.world.Names image? (m.pass ms).world := by
  unfold pass
  split
  · exact World.names_still rfl
  · refine Clockwork.run_preserves (P := fun m' : ContainerManager => m.world.Names image? m'.world)
      (fun m₁ m₂ stepped names => ?_) (fun _ _ _ _ _ names => names) _ (World.names_still rfl)
    obtain ⟨⟨w, cleanups⟩, first, rfl⟩ := Option.map_eq_some_iff.mp stepped
    exact names.trans (Cleanup.names_stepFirst first)

theorem names_complete {α : Type} (work : Work (Except Cause α)) (m : ContainerManager) :
    m.world.Names image? (m.complete work).1.world := by
  have within : m.world.Names image? (World.completeWithin holder {} work m).1.world := by
    induction work generalizing m with
    | done | crash => exact World.names_still rfl
    | sleep ms rest ih => exact (names_pass _ m).trans (ih () _)
    | log workflow level message rest ih =>
      have logged : m.world.Names image? (m.world.log {} workflow level message) :=
        ((World.Notes.nothing rfl).log workflow level message).names (by simp)
      exact logged.trans (ih (holder.setWorld _ m))
    | remark what rest ih =>
      have noted : m.world.Names image? (m.world.note {} (.remarked what)) :=
        World.names_note (by simp [Event.image?])
      exact noted.trans (ih (holder.setWorld _ m))
    | count counter rest ih =>
      have counted : m.world.Names image? (m.world.countUp counter).1 := World.names_still rfl
      exact counted.trans (ih _ (holder.setWorld _ m))
    | readFiles rest ih => exact ih _ m
    | writeFiles files rest ih =>
      have written : m.world.Names image? { m.world with files := files } := World.names_still rfl
      exact written.trans (ih (holder.setWorld _ m))
  unfold complete
  split
  next m' result completed => rwa [completed] at within
  next m' reason completed => rwa [completed] at within

/-- An acquisition begins with the order for its image with a tag, and tells of no other image. -/
theorem names_acquire (image : String) (m : ContainerManager) :
    (m.note (.pull (Image.normalize image))).world.Names (some (Image.normalize image))
      (m.acquire image).1.world := by
  have told (m : ContainerManager) (event : Event)
      (named : ∀ name, event.image? = some name → some (Image.normalize image) = some name) :
      m.world.Names (some (Image.normalize image)) (m.note event).world :=
    World.names_note named
  have pull : (m.note (.pull (Image.normalize image))).world.Names (some (Image.normalize image))
      ((m.note (.pull (Image.normalize image))).complete
        (m.runtime.pull (Image.normalize image))).1.world := names_complete _ _
  simp only [acquire]
  split
  next m₁ cause refused => rwa [refused] at pull
  next m₁ pulled =>
    rw [pulled] at pull
    have begun := (pull.trans (told m₁ (.pulled (Image.normalize image))
      (by simp [Event.image?]))).trans (told _ (.start (Image.normalize image))
      (by simp [Event.image?]))
    have start := begun.trans (names_complete (m₁.runtime.start (Image.normalize image)) _)
    split
    next m₂ cause refused => rwa [refused] at start
    next m₂ id started =>
      rw [started] at start
      exact start.trans (World.names_note (by simp [Event.image?]))

end ContainerManager

/-! ### Lines of the log -/

namespace OwnSteps

variable {c : Context} {stage : Stage} {agent : Agent} {own : OwnSteps} {w w' : World}
  {news before after : List Record} {r : Record} {events : List Event} {image reference id : String}

/-- A container comes up only where one is being started. -/
theorem Tells.starts_of_started (tells : own.Tells c stage agent events)
    (mem : .started reference id ∈ events) : ∃ image noted, own.Starts image noted := by
  have apart {noted : List Event} (uncontained : ∀ event ∈ noted, event.isOfContainer = false)
      (mem : .started reference id ∈ noted) : False := by
    simpa [Event.isOfContainer] using uncontained _ mem
  cases tells with
  | goes goes =>
    cases goes with
    | starting starts | started starts => exact ⟨_, _, starts⟩
    | pulling fetches | pulled fetches => cases fetches <;> simp at mem
    | tries goes => exact (apart goes.uncontained mem).elim
    | succeeds ends | fails ends => exact (apart ends.uncontained mem).elim
    | stopping stops => cases stops <;> simp at mem
    | _ => cases mem
  | ends ends =>
    cases ends with
    | unstarted starts => exact ⟨_, _, starts⟩
    | unpulled fetches => cases fetches <;> simp at mem
    | stopped stops => cases stops <;> simp at mem
    | _ => cases mem
  | crashes crashes =>
    cases crashes with
    | starting starts => exact ⟨_, _, starts⟩
    | fetching fetches => cases fetches <;> simp at mem
    | calling asks => exact (apart asks.uncontained mem).elim
    | stopping stops => cases stops <;> simp at mem

/-- What is neither among the first members of a list nor the last one is the last but one. -/
theorem behind_last_but_one {first : List Record} {r' line : Record}
    (split : first ++ [r', line] = before ++ r :: after) (new : r ∉ first) (other : r ≠ line) :
    r = r' ∧ after = [line] := by
  rcases List.append_eq_append_iff.mp split with ⟨between, -, rest⟩ | ⟨between, rfl, rest⟩
  · match between, rest with
    | [], rest =>
      obtain ⟨rfl, rfl⟩ := List.cons_eq_cons.mp rest
      exact ⟨rfl, rfl⟩
    | [_], rest => exact absurd (List.cons_eq_cons.mp (List.cons_eq_cons.mp rest).2).1.symm other
    | _ :: _ :: _, rest => simp at rest
  · cases between with
    | nil =>
      obtain ⟨rfl, rfl⟩ := List.cons_eq_cons.mp rest
      exact ⟨rfl, rfl⟩
    | cons x between =>
      obtain ⟨rfl, -⟩ := List.cons_eq_cons.mp rest
      exact absurd (by simp) new

/-- The line that is logged when a container has come up stands right behind the news of it. -/
theorem line_of_followStart {progress : World × Progress (Except Cause String)}
    (begun : w.Notes c.place events progress.1) (quiet : .started reference id ∉ events)
    (left : (followStart c stage image progress).left? = some w')
    (noted : w'.history = news.reverse ++ w.history) (split : news = before ++ r :: after)
    (up : r.event = .started reference id) :
    reference = Image.normalize image ∧ r.place = c.place ∧ ∃ line, after = [line] ∧
      line.place = c.place ∧ line.event = .logged c.place.workflow .info
        s!"Stage '{stage.name}' running in container {id} ({image})" := by
  obtain ⟨w₁, progress⟩ := progress
  obtain ⟨first, noted₁, -, marked⟩ := begun
  have unheard (mem : r ∈ first) : False := by
    have told : r.event ∈ marks first := by
      simp only [marks, List.mem_filter, List.mem_map]
      exact ⟨⟨r, mem, rfl⟩, by rw [up]; rfl⟩
    rw [marked, up] at told
    exact quiet told
  have still (same : w₁ = w') : False := by
    subst same
    obtain rfl : first = news :=
      List.reverse_inj.mp (List.append_cancel_right (noted₁.symm.trans noted))
    exact unheard (by simp [split])
  cases progress with
  | crashed reason | waits wait => exact (still (Option.some.inj left)).elim
  | finished answer =>
    cases answer with
    | error cause => exact (still (Option.some.inj left)).elim
    | ok name =>
      obtain rfl := Option.some.inj left
      have all : news = first ++ [⟨w₁.clock, c.place, .started (Image.normalize image) name⟩,
          ⟨w₁.clock, c.place, .logged c.place.workflow .info
            s!"Stage '{stage.name}' running in container {name} ({image})"⟩] := by
        refine List.reverse_inj.mp (List.append_cancel_right (noted.symm.trans ?_))
        have told : w₁.history = first.reverse ++ w.history := noted₁
        simp [World.log, World.note, told]
      rw [all] at split
      obtain ⟨rfl, rfl⟩ := behind_last_but_one split unheard (by rintro rfl; cases up)
      obtain ⟨rfl, rfl⟩ := Event.started.inj up
      exact ⟨rfl, rfl, _, rfl, rfl, rfl⟩

/-- A container that comes up in a turn of own steps is told of at once, under the name by which its
image was asked for. -/
theorem line_of_move (sound : own.Sound c stage agent)
    (left : (own.move c stage agent w).left? = some w')
    (noted : w'.history = news.reverse ++ w.history) (split : news = before ++ r :: after)
    (up : r.event = .started reference id) :
    r.place = c.place ∧ ∃ line, after = [line] ∧ line.place = c.place ∧
      line.event = .logged c.place.workflow .info
        s!"Stage '{stage.name}' running in container {id} ({reference})" := by
  obtain ⟨events, notes, tells⟩ := tells_of_move left
  have told : .started reference id ∈ events := by
    rw [← up]
    exact notes.mem noted (by simp [split]) (by rw [up]; rfl)
  obtain ⟨image, begun, starts⟩ := tells.starts_of_started told
  cases starts with
  | now =>
    have named := Agent.normalize_image sound
    obtain ⟨rfl, here, line⟩ := line_of_followStart (World.notes_begun rfl _) (by simp) left noted
      split up
    rw [named]
    exact ⟨here, line⟩
  | before =>
    have named := Agent.normalize_image sound
    simp only [move] at left
    split at left
    · obtain ⟨rfl, here, line⟩ := line_of_followStart (World.notes_perform _ _) (by simp) left noted
        split up
      rw [named]
      exact ⟨here, line⟩
    · cases left

end OwnSteps

/-- Right behind the news that a container has come up for a stage stands the line of the log that
tells of it and of its image. -/
def Pipeline.Announced (p : Pipeline) (records : List Record) : Prop :=
  ∀ before r after image id, records = before ++ r :: after → r.event = .started image id →
    ∃ stage around line rest, p.stageAt? r.place.path = some (stage, around) ∧
      after = line :: rest ∧ line.place = r.place ∧ line.event = .logged r.place.workflow .info
        s!"Stage '{stage.name}' running in container {id} ({image})"

theorem Pipeline.Announced.append {p : Pipeline} {records more : List Record}
    (announced : p.Announced records) (announced' : p.Announced more) :
    p.Announced (records ++ more) := by
  intro before r after image id split up
  rcases List.append_eq_append_iff.mp split with ⟨between, rfl, rest⟩ | ⟨between, rfl, rest⟩
  · exact announced' between r after image id rest up
  · cases between with
    | nil => exact announced' [] r after image id rest.symm up
    | cons first between =>
      obtain ⟨rfl, rfl⟩ := List.cons_eq_cons.mp rest
      obtain ⟨stage, around, line, behind, declared, rfl, told⟩ :=
        announced before r between image id rfl up
      exact ⟨stage, around, line, _, declared, List.cons_append, told⟩

namespace Execution

variable {engine : Engine} {pipeline : Pipeline} {properties : Properties} {state : StateCell}
  {past : List Moment} {e e' : Execution} {path way : List Nat} {w w' : World} {news : List Record}
  {r : Record} {stage : Stage} {around : Agent} {declared image : String}

theorem Run.announces (so : Run engine pipeline properties state past e)
    (moved : e.move engine w path = .moved w' e') (noted : w'.history = news.reverse ++ w.history) :
    pipeline.Announced news := by
  intro before r after image id split up
  have left : (e.move engine w path).left? = some w' := by rw [moved, Turn.left?]
  have mem : r ∈ e.news engine w path := by
    rw [news_of_noted left noted, split]
    simp
  obtain ⟨i, stage, agent, branches, own, there⟩ := working_of_news mem (by rw [up]; rfl)
  obtain ⟨workflow, works⟩ := so.works there
  obtain ⟨around, declared, -⟩ := works.declared
  rw [left?_of_working there] at left
  obtain ⟨here, line, rfl, place, event⟩ := OwnSteps.line_of_move works.sound left noted split up
  refine ⟨stage, around, line, [], ?_, rfl, place.trans here.symm, ?_⟩
  · rw [here, works.here]
    exact declared
  · rw [here, event]

/-- All containers of a run are told of in its log. -/
theorem Run.announced (so : Run engine pipeline properties state past e) :
    pipeline.Announced (records past) := by
  induction so with
  | begins => intro before r after image id split; simp at split
  | called so rota ih => exact ih
  | turn so moved noted ih =>
    rw [records_concat]
    exact ih.append (so.announces moved noted)

/-- What is told of images where a stage runs in a container is told of the image of its agent. -/
theorem Run.image_eq (so : Run engine pipeline properties state past e)
    (there : pipeline.stageAt? path = some (stage, around))
    (docker : stage.effectiveAgent around = .docker declared)
    (mem : r ∈ records past ++ e.news engine w way) (here : r.place.path = path)
    (named : r.event.image? = some image) : image = Image.normalize declared := by
  have of_container : r.event.isOfContainer = true := by
    cases event : r.event <;> simp_all [Event.image?, Event.isOfContainer]
  have warranted : pipeline.Warrants r.place.path r.event := by
    rcases List.mem_append.mp mem with earlier | now
    · exact so.warranted_of_records earlier of_container
    · exact so.warranted_of_news now of_container
  obtain ⟨-, -, name, -, -, nearest, told⟩ := warranted
  rw [here] at nearest
  have same := nearest.unique (docker ▸ Pipeline.nearest_effectiveAgent there)
  obtain rfl := Agent.docker.inj same
  exact told image named

/-- Images keep their names. A reference with a tag or a digest in its last part is taken as it is,
any other with the default tag; so it has one behind, and taking it again changes nothing. Whoever
acquires a container by a reference that is complete already acquires the same, and the runtime is
told of the complete one only. What a run tells the runtime of the image of a stage, what it logs
when the container has come up, and the error where it has not, name the image of the stage's agent
with its tag. -/
theorem Run.images_keep_their_names (so : Run engine pipeline properties state past e) :
    (∀ cs, ∃! segment, Image.EndsIn cs segment) ∧
      (∀ image segment, Image.EndsIn image.toList segment → Image.normalize image =
        if ':' ∈ segment ∨ '@' ∈ segment then image else image ++ ":latest") ∧
      (∀ image segment, Image.EndsIn (Image.normalize image).toList segment →
        ':' ∈ segment ∨ '@' ∈ segment) ∧
      (∀ image, Image.normalize (Image.normalize image) = Image.normalize image) ∧
      (∀ image (m : ContainerManager), m.acquire (Image.normalize image) = m.acquire image ∧
        (m.note (.pull (Image.normalize image))).world.Names (some (Image.normalize image))
          (m.acquire image).1.world) ∧
      ∀ path stage around declared, pipeline.stageAt? path = some (stage, around) →
        stage.effectiveAgent around = .docker declared →
        (∀ w way, ∀ r ∈ records past ++ e.news engine w way, r.place.path = path →
          ∀ image, r.event.image? = some image → image = Image.normalize declared) ∧
        (∀ before r after image id, records past = before ++ r :: after → r.place.path = path →
          r.event = .started image id → ∃ line rest, after = line :: rest ∧ line.place = r.place ∧
            line.event = .logged r.place.workflow .info
              s!"Stage '{stage.name}' running in container {id} ({Image.normalize declared})") ∧
        ∀ m ∈ pastAt past path, ∀ worker agent branches own output image message,
          m.before = .working worker agent branches own →
          m.after = .settled output (some (.container image message)) →
            image = Image.normalize declared ∧ ∃ workflow, properties.workflowId = .ok workflow ∧
              .pull image ∈ marksAt ⟨workflow, path⟩ (records past) := by
  refine ⟨Image.existsUnique_endsIn, fun image segment ends => ends.normalize_eq, ?_,
    Image.normalize_normalize, fun image m => ⟨?_, ContainerManager.names_acquire image m⟩, ?_⟩
  · intro image segment ends
    exact ends.isTagged_iff.mp (Image.isTagged_normalize image)
  · simp only [ContainerManager.acquire, Image.normalize_normalize]
  intro path stage around declared there docker
  refine ⟨fun w way r mem here image named => so.image_eq there docker mem here named, ?_, ?_⟩
  · intro before r after image id split here up
    have mem : r ∈ records past ++ e.news engine {} [] := by simp [split]
    have named : image = Image.normalize declared :=
      so.image_eq there docker mem here (by rw [up]; rfl)
    obtain ⟨stage', around', line, rest, there', rfl, place, event⟩ :=
      so.announced before r after image id split up
    rw [here, there] at there'
    obtain ⟨rfl, rfl⟩ := Prod.mk.inj (Option.some.inj there')
    exact ⟨line, rest, rfl, place, named ▸ event⟩
  · intro m mem worker agent branches own output image message worked settled
    obtain ⟨workflow, -, -, known, -⟩ := so.declared_of_past mem
    obtain ⟨name, nearest, rfl, pull⟩ := so.image_of_failure known mem worked settled
    have same := nearest.unique (docker ▸ Pipeline.nearest_effectiveAgent there)
    obtain rfl := Agent.docker.inj same
    exact ⟨rfl, workflow, known, pull⟩

theorem Duo.left_keeps_its_image :
    Image.normalize "host:5000/app" = "host:5000/app:latest" ∧
      ∃ before r line rest, records Duo.played.1 = before ++ r :: line :: rest ∧
        r.event = .started "left:latest" "left:latest" ∧ line.event =
          .logged "duo" .info "Stage 'left' running in container left:latest (left:latest)" := by
  obtain ⟨-, normal, -, -, -, images⟩ := Duo.run.images_keep_their_names
  obtain ⟨named, lines, -⟩ := images [0, 0] _ _ "left" rfl rfl
  have port : Image.EndsIn "host:5000/app".toList "app".toList :=
    ⟨by decide, .inr ⟨"host:5000".toList, by decide⟩⟩
  refine ⟨(normal _ _ port).trans (by decide), ?_⟩
  have up : (records Duo.played.1).any (fun r =>
      r.place == ⟨"duo", [0, 0]⟩ && r.event.startedId? == some "left:latest") = true := by
    decide +kernel
  obtain ⟨r, mem, found⟩ := List.any_eq_true.mp up
  obtain ⟨here, started⟩ := Bool.and_eq_true_iff.mp found
  have here : r.place = ⟨"duo", [0, 0]⟩ := beq_iff_eq.mp here
  obtain ⟨image, started⟩ := Event.startedId?_eq_some.mp (beq_iff_eq.mp started)
  obtain ⟨before, after, split⟩ := List.append_of_mem mem
  obtain ⟨line, rest, rfl, -, told⟩ := lines before r after image _ split (by rw [here]) started
  obtain rfl :=
    named {} [] r (List.mem_append_left _ mem) (by rw [here]) image (by rw [started]; rfl)
  have tagged : Image.normalize "left" = "left:latest" := by decide
  rw [tagged] at started told
  refine ⟨before, r, line, rest, split, started, ?_⟩
  rw [told, here]
  exact congrArg _ (by decide)

end Execution
end PipelineRunner
