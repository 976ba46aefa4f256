import PipelineRunner.Plugin.Basic

/-!
The registry of plugins: who is registered under which name, and which plugin provides a command.
Every plugin handed to the registry is numbered, and the registry keeps a diary of its attempts to
start them and of those that it has stopped.
-/

namespace PipelineRunner

/-- The plugin and the method that provide a command. -/
structure Binding where
  command : String
  plugin : String
  method : String
  deriving DecidableEq, Repr

/-- What the registry has done with a plugin: its number among those handed over, and its name. -/
inductive PluginEvent where
  | started (serial : Nat) (name : String)
  /-- It has been asked to start, and has not. -/
  | failed (serial : Nat) (name : String)
  | stopped (serial : Nat) (name : String) (builtin : Bool)
  deriving DecidableEq, Repr

/-- A registered plugin. -/
structure Registration where
  name : String
  serial : Nat
  plugin : Plugin

structure Registry where
  plugins : List Registration := []
  commands : List Binding := []
  /-- How many plugins have been handed over so far. -/
  handed : Nat := 0
  /-- The latest event stands first. -/
  diary : List PluginEvent := []

namespace Registry

def empty : Registry := {}

def find? (r : Registry) (name : String) : Option Registration :=
  r.plugins.find? fun p => p.name == name

def resolve (r : Registry) (command : String) : Option Binding :=
  r.commands.find? fun b => b.command == command

/-- The first binding that one of the commands already has. -/
def conflict? (r : Registry) (plugin : Plugin) : Option Binding :=
  plugin.methods.findSome? fun m => r.resolve m.1

def bindingsOf (name : String) (plugin : Plugin) : List Binding :=
  plugin.methods.map fun m => ⟨m.1, name, m.2⟩

/-- Starts a plugin and registers it. If one of its commands is taken it is stopped again. -/
def register (r : Registry) (name : String) (plugin : Plugin) :
    Registry × Except RegistryError Unit :=
  let serial := r.handed
  let r := { r with handed := serial + 1 }
  if (r.find? name).isSome then (r, .error (.alreadyRegistered name))
  else
    match plugin.startFailure with
    | some cause =>
      ({ r with diary := .failed serial name :: r.diary }, .error (.startFailed name cause))
    | none =>
      let started := PluginEvent.started serial name
      match r.conflict? plugin with
      | some existing =>
        ({ r with diary := .stopped serial name plugin.builtin :: started :: r.diary },
          .error (.commandConflict existing.command name existing.plugin))
      | none =>
        ({ r with
            plugins := r.plugins ++ [⟨name, serial, plugin⟩]
            commands := r.commands ++ bindingsOf name plugin
            diary := started :: r.diary },
          .ok ())

/-- Removes a plugin with its commands, and stops it. -/
def unregister (r : Registry) (name : String) : Registry × Except RegistryError Unit :=
  match r.find? name with
  | none => (r, .error (.unknownPlugin name))
  | some entry =>
    ({ r with
        plugins := r.plugins.filter fun p => p.name != name
        commands := r.commands.filter fun b => b.plugin != name
        diary := .stopped entry.serial name entry.plugin.builtin :: r.diary },
      match entry.plugin.stopFailure with
      | some cause => .error (.stopFailed name cause)
      | none => .ok ())

def names (r : Registry) : List String :=
  (r.plugins.map (·.name)).mergeSort (fun a b => a ≤ b)

def sortedCommands (r : Registry) : List Binding :=
  r.commands.mergeSort (fun a b => a.command ≤ b.command)

/-- Removes the plugins of the given names one after the other, collecting what fails. -/
def unregisterEach (r : Registry) : List String → Registry × List RegistryError
  | [] => (r, [])
  | name :: rest =>
    let (r, result) := r.unregister name
    let (r, errors) := r.unregisterEach rest
    (r, match result with
      | .ok () => errors
      | .error e => e :: errors)

def unregisterAll (r : Registry) : Registry × List RegistryError :=
  r.unregisterEach r.names

/-- The registration that a call of a method reaches. -/
def reach (r : Registry) (plugin method : String) : Except RegistryError Registration :=
  match r.find? plugin with
  | none => .error (.unknownPlugin plugin)
  | some entry =>
    if entry.plugin.methods.any fun m => m.2 == method then .ok entry
    else .error (.unknownMethod plugin method)

end Registry
end PipelineRunner
