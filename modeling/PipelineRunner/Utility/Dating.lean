import PipelineRunner.Utility.Listing

/-!
The utility that shows the time, or another instant that is stated in words, in the form that is
asked for.
-/

namespace PipelineRunner.Utility

open Host Text Job

namespace Dating

def zone : Job Zone := do
  match ← value? "TZ" with
  | none | some "" => return .common
  | some text => return .ofText text

/-- The form that an option asks for, if its argument is one of those that it can have. -/
def form? (key kind : String) : Option String :=
  match key, kind with
  | "iso-8601", "" | "iso-8601", "date" | "rfc-3339", "date" => some "%F"
  | "iso-8601", "hours" => some "%FT%H%:z"
  | "iso-8601", "minutes" => some "%FT%R%:z"
  | "iso-8601", "seconds" => some "%FT%T%:z"
  | "iso-8601", "ns" => some "%FT%T,%N%:z"
  | "rfc-3339", "seconds" => some "%F %T%:z"
  | "rfc-3339", "ns" => some "%F %T.%N%:z"
  | "rfc-email", _ => some "%a, %d %b %Y %T %z"
  | _, _ => none

/-- The arguments that an option for a form can have. -/
def kinds (key : String) : List String :=
  if key = "iso-8601" then ["hours", "minutes", "date", "seconds", "ns"]
  else ["date", "seconds", "ns"]

/-- The form that an option asks for. Its argument may be the beginning of a word. -/
def formOf (key kind : String) : Job String := do
  let meant := (kinds key).filter (·.startsWith kind)
  let whole := if kind.isEmpty || (kinds key).contains kind then some kind
    else if meant.length = 1 then meant.head? else none
  match (if key = "rfc-email" then some "" else whole).bind (form? key) with
  | some form => pure form
  | none => do
    let what := if meant.isEmpty then "invalid" else "ambiguous"
    warn (s!"{what} argument " ++ quoted kind ++ " for " ++ quoted ("--" ++ key))
    let list := (kinds key).map fun k => "\n  - " ++ quoted k
    act (Act.print 2 ("Valid arguments are:" ++ String.join list ++ "\n"))
    pointToHelp 1

def display (form : String) (t : Timestamp) : Job Unit := do
  printLine (Calendar.textIn (← zone) t form)

def named (now : Timestamp) (text : String) : Job (Option Timestamp) := do
  match Calendar.instant? (← zone) now text with
  | some t => pure (some t)
  | none => do
    fault 1 ("invalid date " ++ quoted text)
    pure none

/-- Shows an instant that the clock was to be set to, which is not allowed. -/
def set (form : String) (t : Timestamp) : Job Unit := do
  fault 1 "cannot set date: Operation not permitted"
  display form t

end Dating

open Dating in
def date (args : List String) : Job Unit := do
  let known : List Known :=
    [.value "d" "date", .value "f" "file", .flag "u" "utc", .flag "" "universal", .flag "" "uct",
      .value "r" "reference", .loose "I" "iso-8601", .flag "R" "rfc-email", .flag "" "rfc-822",
      .flag "" "rfc-2822", .value "" "rfc-3339", .value "s" "set", .flag "" "debug",
      .flag "" "resolution"]
  let a ← arguments 1 known args
  let seen ← look
  let now := instantOf seen.files.time
  let forms ← collect (fun (key, kind) => formOf (if key.startsWith "rfc-" && key != "rfc-3339"
    then "rfc-email" else key) kind)
    (a.options.filter fun o =>
      ["iso-8601", "rfc-3339", "rfc-email", "rfc-822", "rfc-2822"].contains o.1)
  if 1 < forms.length then fail 1 "multiple output formats specified"
  let sources := ["date", "file", "reference", "resolution"].filter a.has
  if 1 < sources.length then
    misuse 1 "the options to specify dates for printing are mutually exclusive"
  if !sources.isEmpty && a.has "set" then
    misuse 1 "the options to print and set the time may not be used together"
  if ["utc", "universal", "uct"].any a.has then
    modify fun d => { d with environment := ("TZ", "UTC0") :: d.environment }
  let extra := a.operands.getD 1 ""
  if 1 < a.operands.length then misuse 1 ("extra operand " ++ quoted extra)
  let given := a.operands.head?
  let form? := (given.filter (·.startsWith "+")).map (Bytes.drop 1)
  if form?.isSome && !forms.isEmpty then fail 1 "multiple output formats specified"
  let isStray := given.isSome && form?.isNone
  if isStray && (!sources.isEmpty || a.has "set") then
    misuse 1 ("the argument " ++ quoted (given.getD "") ++ " lacks a leading '+';\n" ++
      "when using an option to specify date(s), any non-option\n" ++
      "argument must be a format string beginning with '+'")
  let form := ((form?.orElse fun _ => forms.head?).getD
    (if a.has "resolution" then "%s.%N" else "%a %b %e %T %Z %Y"))
  match a.last? "reference", a.last? "date", a.last? "file", a.last? "set" with
  | some name, _, _, _ =>
    match seen.files.find seen.directory name true with
    | .ok i => display form (instantOf (seen.files.node i).modified)
    | .error e => fault 1 (about name e)
  | _, some text, _, _ =>
    if let some t ← named now text then display form t
  | _, _, some name, _ => withInput (plainly 1) name fun d => do
    eachLine ⟨d, '\n', Act.blockSize, [], [], false⟩ (fun (_ : Unit) l => do
      if let some t ← named now l.text then display form t
      pure (.again ())) ()
  | _, _, _, some text =>
    if let some t ← named now text then set form t
  | _, _, _, _ =>
    match given.filter fun _ => isStray with
    | some text =>
      match Calendar.setting? ((← zone).shown now) text with
      | some t => set form { t with seconds := t.seconds - (← zone).offset }
      | none => fault 1 ("invalid date " ++ quoted text)
    | none => display form (if a.has "resolution" then ⟨0, 1⟩ else now)

end PipelineRunner.Utility
