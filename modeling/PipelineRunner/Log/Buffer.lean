import PipelineRunner.Json.Basic
import PipelineRunner.OrderedMap
import PipelineRunner.Time.Basic

/-!
Entries of a workflow's log, and a buffer of entries for each workflow. A reader takes what has come
since it last looked.
-/

namespace PipelineRunner

/-- How grave an entry is. -/
inductive LogLevel where
  | debug | info | warning | error
  deriving DecidableEq, Repr, Inhabited

namespace LogLevel

/-- The level as people see it. -/
def display : LogLevel → String
  | debug => "DEBUG"
  | info => "INFO"
  | warning => "WARN"
  | error => "ERROR"

/-- The level as records name it. -/
def name : LogLevel → String
  | debug => "Debug"
  | info => "Info"
  | warning => "Warning"
  | error => "Error"

def ofName? (name : String) : Option LogLevel :=
  [debug, info, warning, error].find? fun l => l.name == name

end LogLevel

/-- An entry of a log. -/
structure LogEntry where
  time : Timestamp
  level : LogLevel
  message : String
  deriving DecidableEq, Repr, Inhabited

namespace LogEntry

/-- The line that people see. -/
def display (e : LogEntry) : String :=
  e.time.preciseClockText ++ " [" ++ e.level.display ++ "] " ++ e.message

def toJson (e : LogEntry) : Json :=
  .object [("timestamp", .string e.time.rfc3339), ("level", .string e.level.name),
    ("message", .string e.message)]

end LogEntry

/-- The entries that nobody has taken yet, by workflow. -/
abbrev LogBuffer := OrderedMap (List LogEntry)

namespace LogBuffer

/-- The entries of a workflow that nobody has taken yet. -/
def entries (b : LogBuffer) (workflow : String) : List LogEntry :=
  (OrderedMap.get? workflow b).getD []

def add (b : LogBuffer) (workflow : String) (entry : LogEntry) : LogBuffer :=
  OrderedMap.insert workflow (b.entries workflow ++ [entry]) b

def drain (b : LogBuffer) (workflow : String) : LogBuffer × List LogEntry :=
  match OrderedMap.get? workflow b with
  | some entries => (OrderedMap.insert workflow [] b, entries)
  | none => (b, [])

def remove (b : LogBuffer) (workflow : String) : LogBuffer :=
  List.filter (fun e => e.1 != workflow) b

@[simp]
theorem entries_add_self (b : LogBuffer) (workflow : String) (entry : LogEntry) :
    (b.add workflow entry).entries workflow = b.entries workflow ++ [entry] := by
  simp [add, entries]

theorem entries_add_of_ne {workflow other : String} (h : other ≠ workflow) (b : LogBuffer)
    (entry : LogEntry) : (b.add workflow entry).entries other = b.entries other := by
  simp [add, entries, OrderedMap.get?_insert_of_ne h]

end LogBuffer
end PipelineRunner
