import PipelineRunner.Shell.Extended.Builtin.Basic

/-!
The commands of shells of the extended language that make variables, tell what they are like, or
take them away.
-/

namespace PipelineRunner.Shell.Extended.Builtin

open Host Text Shell.Action

/-- An argument of a command: a text, or an assignment for a command that declares variables. -/
inductive Argument where
  | text (s : String)
  | given (g : Given)

namespace Argument

def plain : Argument → String
  | text s => s
  | given g =>
    match g.value with
    | .text t => g.target ++ g.sign ++ t
    | .elements _ => g.name

/-- The assignment that an argument states; one without a value only names a variable. -/
def parse : Argument → Except String (String × Option String × Option (Bool × Value))
  | given g => .ok (g.name, g.subscript, some (g.appends, g.value))
  | text s =>
    let cs := s.toList
    let target := cs.takeWhile fun c => c != '='
    let value := if target.length = cs.length then none else some (cs.drop (target.length + 1))
    let appends := value.isSome && target.getLast? = some '+'
    let target := String.ofList (if appends then target.dropLast else target)
    if !isTarget target then .error s
    else
      let (name, place) := splitReference target
      .ok (name, place, value.map fun v => (appends, .text (String.ofList v)))

end Argument

/-- What is asked of variables. -/
structure Wish where
  /-- The letters of properties that they get. -/
  on : List Char := []
  /-- The letters of those that they lose. -/
  off : List Char := []
  deriving Repr

namespace Wish

def has (w : Wish) (c : Char) : Bool := w.on.contains c

def change (w : Wish) (v : Variable) : Variable :=
  let v := if w.has 'i' then { v with isNumber := true } else v
  let v := if w.off.contains 'i' then { v with isNumber := false } else v
  let v := if w.has 'x' then { v with exported := true } else v
  let v := if w.off.contains 'x' then { v with exported := false } else v
  let v := if w.has 'l' then { v with recasing := some .lower } else v
  let v := if w.has 'u' then { v with recasing := some .upper } else v
  let v := if (w.off.contains 'l' && v.recasing = some .lower) ||
      (w.off.contains 'u' && v.recasing = some .upper) then { v with recasing := none } else v
  let v := if w.has 'n' then { v with isReference := true } else v
  if w.off.contains 'n' then { v with isReference := false } else v

def listed (w : Wish) (v : Variable) : Except String Variable :=
  let old : List (Nat × String) := v.value.toList.map (0, ·)
  match v.elements with
  | some (.numbered _) =>
    if w.has 'A' then .error "cannot convert indexed to associative array"
    else if w.off.contains 'a' then .error "cannot destroy array variables in this way"
    else .ok v
  | some (.keyed _) =>
    if w.has 'a' then .error "cannot convert associative to indexed array"
    else if w.off.contains 'A' then .error "cannot destroy array variables in this way"
    else .ok v
  | none =>
    let isBare := v.value.isNone
    if w.has 'A' then
      .ok { v with
        value := none, elements := some (.keyed (old.map fun (_, t) => ("0", t))), isBare }
    else if w.has 'a' then
      .ok { v with value := none, elements := some (.numbered old), isBare }
    else .ok v

end Wish

/-- The scope of the function that is running, with those inside of it. -/
def functionScope (scopes : List Scope) : Nat := (scopes.takeWhile fun c => !c.isFunction).length

/-- Makes a variable a function's own, unless it is already; it has no value then. -/
def makeOwn (name : String) : Action Unit := modify fun s =>
  let n := functionScope s.scopes
  match s.scopes[n]? with
  | none => s
  | some scope =>
    if scope.bindings.any fun b => b.1 == name then s
    else
      let old := OrderedMap.get? name s.bindings
      let scope := { scope with bindings := (name, old) :: scope.bindings }
      let inherited := if s.hasFeature "localvar_inherit" then old.getD {} else {}
      let exported := old.any (·.exported) &&
        (s.scopes.take n).any fun c => c.bindings.any fun b => b.1 == name
      let made := if exported then old.getD {} else inherited
      let s := { s with scopes := s.scopes.set n scope }
      s.putVariable name (some made)

/-- Carries something out for the variable of a name that all functions share. -/
def outside {α : Type} (name : String) (x : Action α) : Action α := do
  let s ← get
  let isHidden (c : Scope) : Bool := c.isFunction && c.bindings.any fun b => b.1 == name
  match (s.scopes.reverse.find? isHidden).bind fun c => List.lookup name c.bindings with
  | none => x
  | some old =>
    let inner := OrderedMap.get? name s.bindings
    modify fun s => s.putVariable name old
    let a ← x
    modify fun s =>
      let changed := OrderedMap.get? name s.bindings
      let place := s.scopes.length - 1 - ((s.scopes.reverse.takeWhile fun c => !isHidden c).length)
      let scopes := s.scopes.modify place fun c =>
        { c with bindings := c.bindings.map fun b => if b.1 == name then (name, changed) else b }
      { s with scopes }.putVariable name inner
    pure a

/-- Gives a variable properties and a value; tells whether that has been possible. -/
def declareOne (w : Wish) (isOwn isBare : Bool) (a : Argument) : Action Bool := do
  match a.parse with
  | .error text =>
    warn (invalidName text)
    pure false
  | .ok (name, place, value) =>
    let complainOf (text : String) : Action Bool := do
      if isBare then warnBare text else warn text
      pure false
    let s ← get
    let isReference := w.has 'n'
    if isOwn && (OrderedMap.get? name s.bindings).any (·.constant) then
      complainOf (s.constantText name)
    else
      if isOwn then makeOwn name
      let s ← get
      let target := if isReference || w.off.contains 'n' then name else s.target name
      let v := (OrderedMap.get? target s.bindings).getD {}
      if v.constant && (value.isSome || w.off.contains 'r') then complainOf (s.constantText name)
      else
        let isList := match value with
          | some (_, .elements _) => true
          | _ => place.isSome
        let w' := if isList && !w.has 'A' && v.elements.isNone then { w with on := 'a' :: w.on }
          else w
        match w'.listed v with
        | .error text => complainOf (name ++ ": " ++ text)
        | .ok v =>
          let exported := s.has "allexport" && value.isSome
          let v := w.change { v with exported := v.exported || exported }
          match isReference, value with
          | true, some (_, .text t) =>
            if !isTarget t then complainOf ("\x60" ++ t ++ "': invalid variable name for name " ++
              "reference")
            else
              modify fun s => s.putVariable name (some { v with value := some t })
              pure true
          | _, value =>
            modify fun s => s.putVariable target (some v)
            let went ← match value with
              | none => pure true
              | some (appends, value) =>
                Given.carryOut { name := target, subscript := place, appends, value }
            if w.has 'r' then
              modify fun s => s.changeVariable target fun v => { v with constant := true }
            pure went

/-- The lines that would make some variables again. -/
def declarations (l : List (String × Variable)) : String :=
  let sorted := l.mergeSort fun a b => a.1 ≤ b.1
  String.join (sorted.map fun (n, v) => declaration n v ++ "\n")

def assignments (s : State) : String :=
  let sorted := (s.allBindings.filter fun b => b.2.isSet || b.2.elements.isSome).mergeSort
    fun a b => a.1 ≤ b.1
  String.join (sorted.map fun (n, v) =>
    let value := match v.elements with
      | some e => elementsText e
      | none => Quoting.asNeeded (v.value.getD "")
    n ++ "=" ++ value ++ "\n")

def hasProperties (letters : List Char) (v : Variable) : Bool :=
  let own := (propertyLetters v).toList
  letters.all own.contains

/-- The letters that stand behind signs in front of other arguments. -/
def takeLetters (known : List Char) : Nat → Wish → List Argument → Action (Wish × List Argument)
  | 0, w, args => pure (w, args)
  | fuel + 1, w, args => do
    match args with
    | .text a :: rest =>
      let letters := a.toList.drop 1
      if a = "--" then pure (w, rest)
      else if letters.isEmpty || !(a.startsWith "-" || a.startsWith "+") then pure (w, args)
      else
        match letters.find? fun c => !known.contains c with
        | some c => refuseOption (Bytes.take 1 a ++ String.singleton c) "invalid option"
        | none =>
          let w := if a.startsWith "-" then { w with on := w.on ++ letters }
            else { w with off := w.off ++ letters }
          takeLetters known fuel w rest
    | args => pure (w, args)

def functionNames (s : State) : List String := (s.functions.map (·.name)).mergeSort (· ≤ ·)

def functionTexts (s : State) (names : List String) : String :=
  String.join (names.filterMap fun n => (s.function? n).map fun f => Written.ofFunction n f.body)

def declare (command : String) (args : List Argument) : Action Nat := do
  let s ← get
  let isInFunction := s.scopes.any (·.isFunction)
  if command = "local" && !isInFunction then failWith "can only be used in a function" 1
  let (w, rest) ← takeLetters "aAfFgiIlnprtux".toList (args.length + 1) {} args
  let isOwn := isInFunction && !w.has 'g'
  if w.has 'f' || w.has 'F' then
    if rest.isEmpty then
      if w.has 'F' then
        say (String.join ((functionNames s).map fun n => "declare -f " ++ n ++ "\n")) 0
      else say (functionTexts s (functionNames s)) 0
    else
      let known := (rest.map Argument.plain).filter fun n => (s.function? n).isSome
      let text := if w.has 'F' then String.join (known.map (· ++ "\n")) else functionTexts s known
      say text (if known.length = rest.length then 0 else 1)
  else if w.has 'p' && !rest.isEmpty then
    let rec show_ (text : String) (status : Nat) : List Argument → Action Nat
      | [] => say text status
      | a :: rest => do
        let s ← get
        let found := (OrderedMap.get? a.plain s.bindings).orElse fun _ => s.frameBinding? a.plain
        match found with
        | some v => show_ (text ++ declaration a.plain v ++ "\n") status rest
        | none =>
          warn (a.plain ++ ": not found")
          show_ text 1 rest
    show_ "" 0 rest
  else if rest.isEmpty then
    let letters := w.on.filter fun c => !(['p', 'g', 'I'].contains c)
    if command = "local" then
      let own := (s.scopes[functionScope s.scopes]?.map fun c => c.bindings.map (·.1)).getD []
      say (declarations (s.bindings.filter fun b => own.contains b.1)) 0
    else if letters.isEmpty && !w.has 'p' then
      say (assignments s ++ functionTexts s (functionNames s)) 0
    else say (declarations (s.allBindings.filter fun b => hasProperties letters b.2)) 0
  else
    forEach (fun (a : Argument) =>
      match command, a with
      | "local", .text "-" => do
        modify fun s => { s with
          scopes := s.scopes.modify (functionScope s.scopes) fun c =>
            { c with options := some s.options } }
        pure true
      | _, a =>
        if w.has 'g' then
          match a.parse with
          | .ok (name, _) => outside name (declareOne w false false a)
          | .error _ => declareOne w false false a
        else declareOne w isOwn false a) 0 rest

/-- Marks variables with the property of a letter, or shows those that are marked. -/
def marking (letter : Char) (args : List Argument) : Action Nat := do
  let s ← get
  let (w, rest) ← takeLetters (if letter = 'x' then "fnp" else "aAfp").toList (args.length + 1) {} args
  if w.has 'f' then
    forEach (fun (a : Argument) => do
      if (s.function? a.plain).isSome then pure true
      else
        warn (a.plain ++ ": not a function")
        pure false) 0 rest
  else if rest.isEmpty then
    let letters := letter :: w.on.filter fun c => c = 'a' || c = 'A'
    say (declarations (s.allBindings.filter fun b => hasProperties letters b.2)) 0
  else
    let w' : Wish := if letter = 'x' && w.has 'n' then { off := ['x'] }
      else { on := letter :: w.on.filter fun c => c = 'a' || c = 'A' }
    forEach (declareOne w' false true) 0 rest

/-- Takes a variable or an element of one away; tells whether that has been possible. -/
def unsetOne (letters : List Char) (text : String) : Action Bool := do
  let s ← get
  let (name, place) := splitReference text
  if letters.contains 'f' then
    modify fun s => { s with functions := s.functions.filter fun f => f.name != text }
    pure true
  else if !isTarget text then
    if letters.contains 'v' then
      warn (invalidName text)
      pure false
    else
      modify fun s => { s with functions := s.functions.filter fun f => f.name != text }
      pure true
  else
    let name := if letters.contains 'n' then name else s.target name
    match OrderedMap.get? name s.bindings with
    | none =>
      if !letters.contains 'v' && place.isNone then
        modify fun s => { s with functions := s.functions.filter fun f => f.name != name }
      pure true
    | some v =>
      if v.constant then
        warn (name ++ ": cannot unset: readonly variable")
        pure false
      else
        match place with
        | none =>
          modify fun s =>
            let isOwn := (s.scopes[functionScope s.scopes]?).any fun c =>
              c.bindings.any fun b => b.1 == name
            let s := s.putVariable name (if isOwn then some {} else none)
            if name = "PATH" then { s with found := [] } else s
          pure true
        | some p =>
          match v.elements with
          | none =>
            if p = "0" then
              modify fun s => s.putVariable name none
              pure true
            else
              warn (name ++ ": not an array variable")
              pure false
          | some e =>
            let isAll := p = "@" || p = "*"
            if isAll && (match e with
                | .numbered _ => true
                | .keyed _ => false) then
              modify fun s => s.putVariable name (some { v with elements := some (.numbered []) })
              pure true
            else
              match ← placeAt name p with
              | none =>
                warn ("[" ++ p ++ "]: bad array subscript")
                pure false
              | some place =>
                modify fun s => s.putVariable name (some { v with
                  elements := some (e.remove place) })
                pure true

def unset (args : List String) : Action Nat := do
  let (options, names) ← options "fvn" args
  let letters := options.map (·.1)
  if letters.contains 'f' && letters.contains 'v' then
    failWith "cannot simultaneously unset a function and a variable" 1
  forEach (unsetOne letters) 0 names

end PipelineRunner.Shell.Extended.Builtin
