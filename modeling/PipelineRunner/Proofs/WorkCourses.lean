import PipelineRunner.Container.Runtime
import PipelineRunner.Proofs.SequentialRuns

/-! Courses of work and of output. Work is performed turn by turn, and others change the world in
between; output comes up item by item, whatever files the command finds. -/

namespace PipelineRunner

/-! ### Work turn by turn -/

namespace World

variable {α : Type} {place : Place} {work work' : Work α} {w w' w₁ : World}
  {turns : List (World × World)} {a : α}

/-- A piece of work is performed to its end. Each of its turns takes it as far as it has to wait and
leads from the first world of a pair to the second; what others do in between stands open. -/
inductive Performs (place : Place) : Work α → List (World × World) → α → Prop where
  | ends {work : Work α} {w w' : World} {a : α}
      (turn : perform place work w = (w', .finished a)) : Performs place work [(w, w')] a
  | waits {work : Work α} {w w' : World} {wait : Waiting α} {turns : List (World × World)} {a : α}
      (turn : perform place work w = (w', .waits wait)) (later : Performs place wait.rest turns a) :
      Performs place work ((w, w') :: turns) a

/-- The turns begin with this world, and between them others do what they do. -/
def Follow (others : World → World) : World → List (World × World) → Prop
  | _, [] => True
  | w, (before, after) :: turns => before = w ∧ Follow others (others after) turns

theorem Performs.exists_cons (performed : Performs place work turns a) :
    ∃ w w' more, turns = (w, w') :: more := by
  cases performed with
  | ends turn => exact ⟨_, _, [], rfl⟩
  | waits turn later => exact ⟨_, _, _, rfl⟩

/-- The first turn is one of whatever goes on as this work does. -/
theorem Performs.shift (same : perform place work w = perform place work' w₁)
    (performed : Performs place work ((w, w') :: turns) a) :
    Performs place work' ((w₁, w') :: turns) a := by
  cases performed with
  | ends turn => exact .ends (same ▸ turn)
  | waits turn later => exact .waits (same ▸ turn) later

/-- Work that does not break down is performed to its end, whatever others do. -/
theorem exists_performs {good : Nat → α → Prop} (ends : work.Ends good) (others : World → World)
    (w : World) : ∃ w' turns a,
      Follow others (others w') turns ∧ Performs place work ((w, w') :: turns) a := by
  induction work generalizing good w with
  | done a => exact ⟨w, [], a, trivial, .ends rfl⟩
  | sleep ms rest ih =>
    cases ms with
    | zero =>
      obtain ⟨w', turns, a, follow, performed⟩ := ih () ends w
      exact ⟨w', turns, a, follow, performed.shift (by rfl)⟩
    | succ ms =>
      obtain ⟨w', turns, a, follow, performed⟩ := ih () ends (others (w.setTimer (ms + 1)).1)
      exact ⟨_, (_, w') :: turns, a, ⟨rfl, follow⟩, .waits rfl performed⟩
  | log workflow level message rest ih =>
    obtain ⟨w', turns, a, follow, performed⟩ := ih ends (w.log place workflow level message)
    exact ⟨w', turns, a, follow, performed.shift (by rfl)⟩
  | remark what rest ih =>
    obtain ⟨w', turns, a, follow, performed⟩ := ih ends (w.note place (.remarked what))
    exact ⟨w', turns, a, follow, performed.shift (by rfl)⟩
  | count counter rest ih =>
    obtain ⟨w', turns, a, follow, performed⟩ := ih _ (ends _) (w.countUp counter).1
    exact ⟨w', turns, a, follow, performed.shift (by rfl)⟩
  | readFiles rest ih =>
    obtain ⟨w', turns, a, follow, performed⟩ := ih _ (ends { w.files with now := w.clock }) w
    exact ⟨w', turns, a, follow, performed.shift (by rfl)⟩
  | writeFiles files rest ih =>
    obtain ⟨w', turns, a, follow, performed⟩ := ih ends { w with files }
    exact ⟨w', turns, a, follow, performed.shift (by rfl)⟩
  | crash reason => exact ends.elim

end World

/-! ### Output item by item -/

/-- These are items that come up in a course of some output, up to its end. -/
inductive Output.Yields : Output → List OutputItem → Prop where
  | finished : Yields .finished []
  | line {text : String} {rest : Unit → Output} {items : List OutputItem}
      (goesOn : Yields (rest ()) items) : Yields (.line text rest) (.ok text :: items)
  | failed {cause : Cause} {rest : Unit → Output} {items : List OutputItem}
      (goesOn : Yields (rest ()) items) : Yields (.failed cause rest) (.error cause :: items)
  | sleep {milliseconds : Nat} {rest : Unit → Output} {items : List OutputItem}
      (goesOn : Yields (rest ()) items) : Yields (.sleep milliseconds rest) items
  | readFiles {rest : Host.FileTree → Output} {items : List OutputItem} (files : Host.FileTree)
      (goesOn : Yields (rest files) items) : Yields (.readFiles rest) items
  | writeFiles {files : Host.FileTree} {rest : Unit → Output} {items : List OutputItem}
      (goesOn : Yields (rest ()) items) : Yields (.writeFiles files rest) items

namespace Output

theorem exists_yields (output : Output) : ∃ items, output.Yields items := by
  induction output with
  | finished => exact ⟨[], .finished⟩
  | line text rest ih =>
    obtain ⟨items, yields⟩ := ih ()
    exact ⟨_, .line yields⟩
  | failed cause rest ih =>
    obtain ⟨items, yields⟩ := ih ()
    exact ⟨_, .failed yields⟩
  | sleep milliseconds rest ih =>
    obtain ⟨items, yields⟩ := ih ()
    exact ⟨items, .sleep yields⟩
  | readFiles rest ih =>
    obtain ⟨items, yields⟩ := ih (.bare [])
    exact ⟨items, .readFiles _ yields⟩
  | writeFiles files rest ih =>
    obtain ⟨items, yields⟩ := ih ()
    exact ⟨items, .writeFiles yields⟩

/-- Output that is there at once has but one course. -/
theorem yields_ofItems {items others : List OutputItem} :
    (ofItems items).Yields others ↔ others = items := by
  induction items generalizing others with
  | nil =>
    constructor
    · intro yields
      cases yields
      rfl
    · rintro rfl
      exact .finished
  | cons item items ih =>
    constructor
    · intro yields
      cases item with
      | ok text =>
        cases yields with
        | line goesOn => rw [ih.mp goesOn]
      | error cause =>
        cases yields with
        | failed goesOn => rw [ih.mp goesOn]
    · rintro rfl
      cases item with
      | ok text => exact .line (ih.mpr rfl)
      | error cause => exact .failed (ih.mpr rfl)

end Output
end PipelineRunner
