import PipelineRunner.Shell.Extended.Expansion

/-!
Assignments of the extended language. A variable gets a text or a list of elements, which can stand
at places of their own; what it has had so far can be kept in front of that.
-/

namespace PipelineRunner.Shell.Extended

open Host Text Shell.Action

/-- An element of a list as it is given. -/
structure Item where
  /-- What stands between brackets in front of it. -/
  subscript : Option String := none
  appends : Bool := false
  value : String
  deriving Repr

namespace Item

/-- The element as it would be written if it had no place. -/
def plain (i : Item) : String :=
  match i.subscript with
  | none => i.value
  | some p => "[" ++ p ++ "]" ++ (if i.appends then "+=" else "=") ++ i.value

end Item

/-- What is assigned. -/
inductive Value where
  | text (s : String)
  | elements (items : List Item)
  deriving Repr

/-- An assignment whose words have been expanded. -/
structure Given where
  name : String
  subscript : Option String := none
  appends : Bool := false
  value : Value
  deriving Repr

namespace Given

def target (g : Given) : String :=
  g.name ++ ((g.subscript.map fun p => "[" ++ p ++ "]").getD "")

def sign (g : Given) : String := if g.appends then "+=" else "="

/-- The assignment as a shell shows it. -/
def shown (g : Given) : String :=
  g.target ++ g.sign ++ (match g.value with
    | .text t => if t.isEmpty then "" else Quoting.traced t
    | .elements items => "(" ++ join " " (items.map fun i => Quoting.traced i.plain) ++ ")")

end Given

/-- Complains without naming the command that is running. -/
def warnBare (text : String) : Action Unit := do
  let running := (← get).running
  modify fun s => { s with running := none }
  warn text
  modify fun s => { s with running }

/-- Whether a variable may have another value, which is said if not. -/
def mayChange (name : String) : Action Bool := do
  let s ← get
  if (s.binding? name).any (·.constant) then
    warnBare (s.constantText (s.target name))
    pure false
  else pure true

/-- The value that a variable gets, if it has been another one so far. -/
def valueFor (v : Option Variable) (old : String) (appends : Bool) (text : String) :
    Action String := do
  if v.any (·.isNumber) then
    let n ← numberOf "" text
    let m ← if appends && !old.isEmpty then numberOf "" old else pure 0
    pure (toString (Shell.Arithmetic.wrapped (m + n)))
  else pure (if appends then old ++ text else text)

/-- Gives a variable or an element of it a value. -/
def put (name : String) (place : Option Place) (appends : Bool) (text : String) : Action Unit := do
  let v := (← get).binding? name
  let old := (match place with
    | none => v.bind (·.text?)
    | some p => v.bind (·.at? p)).getD ""
  let text ← valueFor v old appends text
  modify fun s => s.store name place text

/-- Elements at numbers with some more, of which those without a place follow each other. -/
def addNumbered (name : String) (v : Option Variable) :
    Elements → Nat → List Item → Action Elements
  | e, _, [] => pure e
  | e, next, i :: rest => do
    let place : Option Nat ← match i.subscript with
      | none => pure (some next)
      | some t => do
        let n ← if t.isEmpty then pure (-1) else numberOf "" t
        let n := if n < 0 then n + e.next else n
        pure (if n < 0 || t.isEmpty then none else some n.toNat)
    match place with
    | none =>
      warnBare (i.plain ++ ": bad array subscript")
      addNumbered name v e next rest
    | some n =>
      let old := (e.get? (.number n)).getD ""
      let text ← valueFor v old i.appends i.value
      addNumbered name v (e.put (.number n) text) (n + 1) rest

def addKeyed (name : String) (v : Option Variable) : Elements → List Item → Action Elements
  | e, [] => pure e
  | e, i :: rest => do
    match i.subscript with
    | none =>
      let value := i.value
      warnBare s!"{name}: {value}: must use subscript when assigning associative array"
      addKeyed name v e rest
    | some "" =>
      warnBare (i.plain ++ ": bad array subscript")
      addKeyed name v e rest
    | some t =>
      let old := (e.get? (.key t)).getD ""
      let text ← valueFor v old i.appends i.value
      addKeyed name v (e.put (.key t) text) rest

/-- Elements without places as keys and values in turn. -/
def pairs : List Item → List Item
  | [] => []
  | [k] => [{ subscript := some k.plain, value := "" }]
  | k :: v :: rest => { subscript := some k.plain, value := v.plain } :: pairs rest

def putElements (name : String) (appends : Bool) (items : List Item) : Action Unit := do
  let s ← get
  let name := s.target name
  let v := s.binding? name
  let e ← match v.bind (·.elements) with
    | some (.keyed old) =>
      let isPairs := (items.head?.map fun i => i.subscript.isNone).getD false
      let items := if isPairs then pairs items else items
      addKeyed name v (.keyed (if appends then old else [])) items
    | some (.numbered old) =>
      let e := Elements.numbered (if appends then old else [])
      addNumbered name v e e.next items
    | none =>
      let e := Elements.numbered (if appends then (v.bind (·.value)).toList.map (0, ·) else [])
      addNumbered name v e e.next items
  let recasing := v.bind (·.recasing)
  let k := s.charset
  let e := match e with
    | .numbered l => Elements.numbered (l.map fun (n, t) => (n, State.recased k recasing t))
    | .keyed l => Elements.keyed (l.map fun (n, t) => (n, State.recased k recasing t))
  modify fun s => s.changeVariable name fun v =>
    { v with value := none, elements := some e, isBare := false }

/-- Carries out an assignment to a variable that may have another value. -/
def Given.carryOut (g : Given) : Action Bool := do
  match g.subscript, g.value with
  | none, .text t => do
    put g.name none g.appends t
    pure true
  | none, .elements items => do
    putElements g.name g.appends items
    pure true
  | some _, .elements _ =>
    warn (g.target ++ ": cannot assign list to array member")
    pure false
  | some p, .text t =>
    match ← if p.isEmpty then pure none else placeAt g.name p with
    | some place => do
      put g.name (some place) g.appends t
      pure true
    | none => do
      warn (g.target ++ ": bad array subscript")
      pure false

namespace Runner

def items (r : Runner) : List Assignment → Action (List Item)
  | [] => pure []
  | .mk _ subscript appends w :: rest => do
    let here : List Item ← match subscript with
      | .place _ p => do
        let place ← r.text {} p
        let value ← r.text { tildes := .all } w
        pure [{ subscript := some place, appends, value }]
      | .every isApart => do
        let value ← r.text { tildes := .all } w
        pure [{ subscript := some (if isApart then "@" else "*"), appends, value }]
      | .absent => do pure ((← r.word w).map fun t => { value := t })
    pure (here ++ (← r.items rest))

def given (r : Runner) : Assignment → Action Given
  | .mk name subscript appends w => do
    let place ← match subscript with
      | .absent => pure none
      | .every isApart => pure (some (if isApart then "@" else "*"))
      | .place _ p => do pure (some (← r.text {} p))
    let value ← match w with
      | [.elements items] => do pure (Value.elements (← r.items items))
      | w => do pure (Value.text (← r.text { tildes := .all } w))
    pure ⟨name, place, appends, value⟩

end Runner
end PipelineRunner.Shell.Extended
