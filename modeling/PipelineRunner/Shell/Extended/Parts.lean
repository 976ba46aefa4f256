import PipelineRunner.Shell.Extended.Builtin.Declaring
import PipelineRunner.Shell.Extended.Leading
import PipelineRunner.Shell.Parser

/-!
The parts of words that take commands: their output, and the pipes that lead to them. What the end
of a shell does belongs here, since each of those commands is run by a shell of its own.
-/

namespace PipelineRunner.Shell.Extended

open Host Text Shell.Action

/-- The sign in front of what a shell shows of its doings; its head stands there once for each text
around. -/
def traceSign (s : State) (sign : String) : String :=
  match sign.toList with
  | [] => ""
  | c :: _ => Bytes.fill c s.nesting ++ sign

/-- Goes to a line with a command. What a trap does is not the command that is running. -/
def atLine (line : Nat) (c : Command) : Action Unit := modify fun s =>
  let isTrap := s.isTrapping || s.savedStatus.isSome
  { s with line := (s.lineShift + line).toNat, command := if isTrap then s.command else c }

def firstLine : Command → Nat
  | .simple line .. | .forEach line .. | .count line .. | .select line .. | .choice line ..
  | .arithmetic line _ | .check line _ | .function line .. => line
  | .pipeline (c :: _) | .negated c | .both c _ | .either c _ | .sequence c _ | .background c
  | .group c | .conditional c .. | .loop _ c _ | .redirected _ c _ | .subshell _ c _ | .timed _ c => firstLine c
  | .pipeline [] | .nothing => 1

namespace Runner

/-- Shows something of what the shell does, if that is asked for. -/
def trace (r : Runner) (text : String) : Action Unit := do
  let s ← get
  if s.has "xtrace" then
    let sign := (s.value? "PS4").getD ""
    let sign ← match Source.document? .extended sign with
      | some word => do
        modify fun s => s.setOption "xtrace" false
        let sign ← r.text {} word
        modify fun s => s.setOption "xtrace" true
        pure sign
      | none => pure sign
    print 2 (traceSign s sign ++ text ++ "\n")

/-- Does something on an event for which there is a trap. -/
def react (r : Runner) (event : Nat) : Action Unit := do
  let s ← get
  match (List.lookup event s.traps).filter fun action => !action.isEmpty with
  | none => pure ()
  | some action =>
    if s.isTrapping then pure ()
    else
      modify fun s => { s with isTrapping := true, skip := .nothing }
      let _ ← r.runText {} none s.line action
      modify fun t => { t with
        isTrapping := false, status := s.status, line := s.line
        skip := if t.skip = .nothing then s.skip else t.skip }

/-- Ends a shell. What is to be done at its end is done first. -/
def leave (r : Runner) : Action Empty := do
  leadBackTo 0 Act.patience
  let s ← get
  match (List.lookup 0 s.traps).filter fun action => !action.isEmpty with
  | none => stop (.code (s.status % 256))
  | some action =>
    let status := s.status
    set { s with
      traps := s.traps.filter fun t => t.1 != 0
      savedStatus := some status, skip := .nothing, running := none, frames := []
      script := s.name, nesting := s.nesting + 1 }
    orElse (do
      let _ ← r.runText {} none 1 action
      setStatus status) fun _ => pure ()
    stop (.code ((← get).status % 256))

/-- Runs a command in a shell of its own, up to its end. -/
def runInner (r : Runner) (mode : Mode) (c : Command) : Action Empty := do
  orElse (r.eval mode c) fun _ => pure ()
  r.leave

def outputOf (r : Runner) : Command → Action String
  | .nothing => do
    modify fun s => { s with innerStatus := 0 }
    pure ""
  | .simple _ [] [] [.file 0 .read w written] _ => do
    let path ← r.destination w written
    match ← act (Act.openFile path .read) with
    | .error e =>
      let reason := e.reason
      warn (path ++ ": " ++ reason)
      modify fun s => { s with innerStatus := 1 }
      pure ""
    | .ok d =>
      let text ← act (Act.readAll d)
      act (Act.close d)
      modify fun s => { s with innerStatus := 0 }
      pure (withoutLineEnds (text.toOption.getD ""))
  | c => do
    let (reading, writing) : Nat × Nat ← ask .pipe
    let child ← fork do
      becomeInner
      act (Act.close reading)
      moveTo writing 1
      modify fun s =>
        let keeps := s.hasFeature "inherit_errexit" || s.has "posix"
        let s := if keeps then s else s.setOption "errexit" false
        { s with
          nesting := s.nesting + 1, running := none, lineAhead := s.line
          lineShift := (s.line : Int) - (firstLine c : Int) }
      r.runInner { exits := true } c
    act (Act.close writing)
    let text := (← act (Act.readAll reading)).toOption.getD ""
    act (Act.close reading)
    let statuses ← waitWithin [child] Act.patience []
    modify fun s => { s with innerStatus := lastStatus (statuses.map ExitStatus.number) }
    if text.toList.contains (Char.ofNat 0) then
      warn "warning: command substitution: ignored null byte in input"
    pure (withoutLineEnds text)

/-- Expands a part of a word, which may be the first of it or the last. -/
def part (r : Runner) (p : Purpose) (isFirst isLast : Bool) : WordPart → Action (List Piece)
  | .text text true => pure (p.literal text true)
  | .text text false => do pure ((← get).literal p isFirst isLast text)
  | .parameter name e quoted => r.expandSeen p quoted name (shownPart name .absent) .whole e
  | .element name subscript isIndirect e quoted =>
    r.expandElement p quoted name subscript isIndirect e
  | .names start isApart quoted => do
    let s ← get
    let all := ((s.bindings.filter fun b => b.1.startsWith start && b.2.isSet).map (·.1))
    pure ((Seen.many (all.mergeSort fun a b => a ≤ b) isApart).pieces s p quoted)
  | .output c quoted => do
    let text ← r.outputOf c
    pure ((Seen.one text).pieces (← get) p quoted)
  | .arithmetic w quoted => do
    let n ← numberOf "" (← r.text {} w)
    pure ((Seen.one (toString n)).pieces (← get) p quoted)
  | .elements items => do
    let items ← r.items items
    pure [.fixed (Glyphs.ofText true ("(" ++ join " " (items.map Item.plain) ++ ")"))]
  | .channel writes c => do
    let path ← r.channel writes r.leave c
    pure [.fixed (Glyphs.ofText true path)]

/-- Expands the parts of a word, of which the first may be the first of the whole word. -/
def partsOf (r : Runner) (p : Purpose) : Bool → Word → Action (List Piece)
  | _, [] => pure []
  | isFirst, w :: rest => do
    let here ← r.part p isFirst rest.isEmpty w
    pure (here ++ (← r.partsOf p false rest))

def arguments (r : Runner) (ws : List Word) : Action (List Builtin.Argument) :=
  collect (fun (w : Word) => do
    match w with
    | [.elements [a]] => do pure [.given (← r.given a)]
    | w => do pure ((← r.word w).map .text)) ws

end Runner
end PipelineRunner.Shell.Extended
