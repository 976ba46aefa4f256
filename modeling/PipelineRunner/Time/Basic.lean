import PipelineRunner.Text.Basic

/-!
Spans of time, in whole nanoseconds, and their text: the largest of four units in which the span is
at least one, with a fraction as long as it has to be.
-/

namespace PipelineRunner

/-- A length of time. -/
structure Span where
  nanoseconds : Nat
  deriving DecidableEq, Repr, Inhabited

namespace Span

def ofSeconds (n : Nat) : Span := ⟨n * 1000000000⟩

def ofMilliseconds (n : Nat) : Span := ⟨n * 1000000⟩

def seconds (s : Span) : Nat := s.nanoseconds / 1000000000

def subsecond (s : Span) : Nat := s.nanoseconds % 1000000000

/-- The milliseconds, rounded up: timers fall on whole milliseconds and never too early. -/
def millisecondsUp (s : Span) : Nat := (s.nanoseconds + 999999) / 1000000

/-- The span is never longer than the milliseconds it is rounded up to. -/
theorem le_millisecondsUp (s : Span) : s.nanoseconds ≤ s.millisecondsUp * 1000000 := by
  simp only [millisecondsUp]
  omega

/-- `value / 10^places`, with the fraction cut after its last digit other than zero. -/
def fixedText (value places : Nat) : String :=
  let fraction := (Text.padded places (value % Nat.pow 10 places)).toList
  let kept := (fraction.reverse.dropWhile (· == '0')).reverse
  let whole := toString (value / Nat.pow 10 places)
  if places = 0 || kept.isEmpty then whole else whole ++ "." ++ String.ofList kept

def text (s : Span) : String :=
  let n := s.nanoseconds
  if 1000000000 ≤ n then fixedText n 9 ++ "s"
  else if 1000000 ≤ n then fixedText n 6 ++ "ms"
  else if 1000 ≤ n then fixedText n 3 ++ "µs"
  else fixedText n 0 ++ "ns"

end Span
/-! ### Instants

Instants of Coordinated Universal Time in the Gregorian calendar, and their text: the time of day
for people, and the format of RFC 3339 for machines. -/

/-- An instant: seconds since the start of 1970 and the nanoseconds after them. More than a second
of nanoseconds stand for a leap second, which comes after the sixtieth of its minute. -/
structure Timestamp where
  seconds : Int
  nanoseconds : Nat
  deriving DecidableEq, Repr, Inhabited

/-- A day of the calendar. -/
structure Date where
  year : Int
  month : Nat
  day : Nat
  deriving DecidableEq, Repr

/-- The day so many days after 1 January 1970. Years are counted from March, so that the leap day
is the last of its year; 400 of them have 146097 days. -/
def Date.ofDays (days : Int) : Date :=
  let shifted := days + 719468
  let era := Int.fdiv shifted 146097
  let inEra := (Int.fmod shifted 146097).toNat
  let yearOfEra := (inEra - inEra / 1460 + inEra / 36524 - inEra / 146096) / 365
  let dayOfYear := inEra - (365 * yearOfEra + yearOfEra / 4 - yearOfEra / 100)
  let monthFromMarch := (5 * dayOfYear + 2) / 153
  let day := dayOfYear - (153 * monthFromMarch + 2) / 5 + 1
  let month := if monthFromMarch < 10 then monthFromMarch + 3 else monthFromMarch - 9
  ⟨yearOfEra + era * 400 + (if month ≤ 2 then 1 else 0), month, day⟩

namespace Timestamp

/-- The instant so many milliseconds after the start of 1970. -/
def ofMilliseconds (n : Nat) : Timestamp :=
  ⟨n / 1000, n % 1000 * 1000000⟩

def date (t : Timestamp) : Date := Date.ofDays (Int.fdiv t.seconds 86400)

def secondOfDay (t : Timestamp) : Nat := (Int.fmod t.seconds 86400).toNat

def wholeSecond : Nat := 1000000000

/-- The nanoseconds since the second has begun. -/
def fraction (t : Timestamp) : Nat := t.nanoseconds % wholeSecond

def clockText (t : Timestamp) : String :=
  let s := t.secondOfDay
  let second := s % 60 + t.nanoseconds / wholeSecond
  Text.padded 2 (s / 3600) ++ ":" ++ Text.padded 2 (s / 60 % 60) ++ ":" ++ Text.padded 2 second

/-- Hours, minutes and seconds with milliseconds, which are cut and not rounded. -/
def preciseClockText (t : Timestamp) : String :=
  t.clockText ++ "." ++ Text.padded 3 (t.fraction / 1000000)

/-- A year: four digits, and a sign and at least four digits outside of 0 to 9999. -/
def yearText (year : Int) : String :=
  if year < 0 then "-" ++ Text.padded 4 year.natAbs
  else if 9999 < year then "+" ++ Text.padded 4 year.natAbs
  else Text.padded 4 year.natAbs

/-- The fraction of a second, in none, three, six or nine digits, as few as are exact. -/
def fractionText (nanoseconds : Nat) : String :=
  if nanoseconds = 0 then ""
  else if nanoseconds % 1000000 = 0 then "." ++ Text.padded 3 (nanoseconds / 1000000)
  else if nanoseconds % 1000 = 0 then "." ++ Text.padded 6 (nanoseconds / 1000)
  else "." ++ Text.padded 9 nanoseconds

def rfc3339 (t : Timestamp) : String :=
  let d := t.date
  yearText d.year ++ "-" ++ Text.padded 2 d.month ++ "-" ++ Text.padded 2 d.day ++ "T" ++
    t.clockText ++ fractionText t.fraction ++ "Z"

end Timestamp
end PipelineRunner
