import PipelineRunner.Container.Runtime
import PipelineRunner.Pipeline.Image
import PipelineRunner.Schedule
import PipelineRunner.World

/-!
Leases on containers: a container is acquired from an image, and stopped when its lease is given
back. A lease that is dropped has its container stopped in the background.
-/

namespace PipelineRunner

/-! ### Stops in the background

A container may be stopped while nobody waits for it, such as one that a breakdown has left
behind. -/

namespace Cleanup

/-- How far a stop has come. -/
inductive Phase where
  | fresh
  | stopping (wait : Waiting (Except Cause Unit))
  | over

end Cleanup

/-- The stopping of a container in the background. -/
structure Cleanup where
  container : String
  phase : Cleanup.Phase := .fresh

namespace Cleanup

/-- Goes on with a stop; whether it fails does not matter. -/
def follow (c : Cleanup) : World × Progress (Except Cause Unit) → World × Cleanup
  | (w, .finished _) => (w.note {} (.stopped c.container), { c with phase := .over })
  | (w, .waits wait) => (w, { c with phase := .stopping wait })
  | (w, .crashed _) => (w, { c with phase := .over })

/-- A turn of the stop, if it has anything to do now. -/
def step (runtime : ContainerRuntime) (c : Cleanup) (w : World) : Option (World × Cleanup) :=
  match c.phase with
  | .fresh =>
    some <| c.follow <|
      World.perform {} (runtime.stop c.container) (w.note {} (.stop c.container))
  | .stopping wait =>
    if w.isDue wait.timer then some (c.follow (World.perform {} wait.rest w)) else none
  | .over => none

def timers (c : Cleanup) : List Timer :=
  match c.phase with
  | .stopping wait => [wait.timer]
  | _ => []

/-- A turn of the first of some stops that has anything to do. -/
def stepFirst (runtime : ContainerRuntime) (w : World) :
    List Cleanup → Option (World × List Cleanup)
  | [] => none
  | c :: rest =>
    match c.step runtime w with
    | some (w, c) => some (w, c :: rest)
    | none => (stepFirst runtime w rest).map fun (w, rest) => (w, c :: rest)

end Cleanup

/-! ### Managers -/

/-- A container that somebody has acquired; a lease that has been given back names none. -/
structure Lease where
  container : Option String
  deriving DecidableEq, Repr, Inhabited

/-- Who acquires and stops containers. -/
structure ContainerManager where
  runtime : ContainerRuntime
  world : World := {}
  /-- The leases that have been given out, in their order. -/
  leases : List Lease := []
  /-- The stops that go on in the background. -/
  cleanups : List Cleanup := []

namespace ContainerManager

def step (m : ContainerManager) : Option ContainerManager :=
  (Cleanup.stepFirst m.runtime m.world m.cleanups).map fun (w, cleanups) =>
    { m with world := w, cleanups := cleanups }

/-- The background in time. -/
def clockwork : Clockwork ContainerManager where
  step := step
  nextDue m := earliest? ((m.cleanups.flatMap Cleanup.timers).map (·.due))
  moveTo t m := { m with world := { m.world with clock := t } }

/-- Lets so many milliseconds pass. What is due in the background at their end is not done yet. -/
def pass (milliseconds : Nat) (m : ContainerManager) : ContainerManager :=
  if milliseconds = 0 then m
  else
    let instant := m.world.clock + milliseconds
    clockwork.moveTo instant (clockwork.run (fun _ => false) (some instant) m)

def holder : World.Holder ContainerManager where
  world m := m.world
  setWorld w m := { m with world := w }
  pass := pass

/-- Performs a piece of work to its end, while the background goes on. -/
def complete {α : Type} (work : Work (Except Cause α)) (m : ContainerManager) :
    ContainerManager × Except Cause α :=
  match World.completeWithin holder {} work m with
  | (m, .ok result) => (m, result)
  | (m, .error reason) => (m, .error (.because reason))

def note (event : Event) (m : ContainerManager) : ContainerManager :=
  { m with world := m.world.note {} event }

/-- Stops a container. That it fails is not told to anybody. -/
def stop (container : String) (m : ContainerManager) : ContainerManager :=
  ((m.note (.stop container)).complete (m.runtime.stop container)).1.note (.stopped container)

/-- Fetches an image, starts a container from it, and gives out a lease on the container. -/
def acquire (image : String) (m : ContainerManager) : ContainerManager × Except Cause String :=
  let image := Image.normalize image
  match (m.note (.pull image)).complete (m.runtime.pull image) with
  | (m, .error cause) => (m, .error cause)
  | (m, .ok ()) =>
    match ((m.note (.pulled image)).note (.start image)).complete (m.runtime.start image) with
    | (m, .error cause) => (m, .error cause)
    | (m, .ok id) =>
      let m := { m with leases := m.leases ++ [Lease.mk (some id)] }
      (m.note (.started image id), .ok id)

/-- The container of a lease that has not been given back. -/
def held? (m : ContainerManager) (lease : Nat) : Option String :=
  m.leases[lease]?.bind Lease.container

/-- Gives a lease back, which stops its container unless that has been done before. -/
def release (lease : Nat) (m : ContainerManager) : ContainerManager :=
  match m.held? lease with
  | some id =>
    let m := { m with leases := m.leases.set lease ⟨none⟩ }
    m.stop id
  | none => m

/-- Drops a lease, which has its container stopped in the background. -/
def drop (lease : Nat) (m : ContainerManager) : ContainerManager :=
  match m.held? lease with
  | some id =>
    clockwork.settle
      { m with
        leases := m.leases.set lease ⟨none⟩
        cleanups := m.cleanups ++ [{ container := id }] }
  | none => m

end ContainerManager
end PipelineRunner
