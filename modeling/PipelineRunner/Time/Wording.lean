import PipelineRunner.Time.Calendar

/-!
Instants in words. A text is cut into words, and several of them together name a day, a time, a zone,
a day of the week, or a distance from all that. Each of the first four may be named once; distances
add up.
-/

namespace PipelineRunner.Calendar

/-- A number as it is written. -/
structure Numeral where
  value : Int
  digits : Nat
  isNegative : Bool := false
  deriving DecidableEq, Repr

/-- What distances are measured in. -/
inductive DateUnit where
  | year
  | month
  /-- So many days. -/
  | days (n : Nat)
  /-- So many seconds. -/
  | seconds (n : Nat)
  deriving DecidableEq, Repr

/-- The unit of a second itself, of which there may be fractions. -/
def DateUnit.second : DateUnit := .seconds 1

/-- A word of a text on an instant. -/
inductive DateWord where
  | number (n : Numeral)
  /-- A number with a sign in front. -/
  | signed (n : Numeral)
  /-- Seconds with a fraction, in nanoseconds. -/
  | fraction (isSigned : Bool) (nanoseconds : Int)
  | sign (c : Char)
  /-- The half of the day. -/
  | half (isAfternoon : Bool)
  | month (n : Nat)
  /-- A day of the week; Sunday is the first. -/
  | weekday (n : Nat)
  | unit (u : DateUnit)
  /-- So many days from now. -/
  | shift (days : Int)
  | ordinal (n : Int)
  /-- The distance in front counts in this direction. -/
  | direction (sign : Int)
  /-- A zone, with its distance from the common time in minutes. -/
  | zone (minutes : Int)
  /-- A zone that is an hour ahead of the others there for the summer. -/
  | summerZone (minutes : Int)
  | summer
  /-- The zone of the user. -/
  | localZone
  /-- The letter between a day and a time, which is a zone too. -/
  | letterT
  | unknown
  deriving DecidableEq, Repr

namespace DateWord

/-- The names of zones, with their distances from the common time in half hours. -/
def zones : List (String × Int) :=
  [("GMT", 0), ("UT", 0), ("UTC", 0), ("WET", 0), ("ART", -6), ("BRT", -6), ("NST", -7),
    ("AST", -8), ("CLT", -8), ("EST", -10), ("CST", -12), ("MST", -14), ("PST", -16),
    ("AKST", -18), ("HST", -20), ("HAST", -20), ("SST", -24), ("WAT", 2), ("CET", 2), ("MET", 2),
    ("MEZ", 2), ("EET", 4), ("CAT", 4), ("SAST", 4), ("EAT", 6), ("MSK", 6), ("IST", 11),
    ("SGT", 16), ("KST", 18), ("JST", 18), ("GST", 20), ("NZST", 24)]

/-- The names of zones in summer, with the distances that they have in winter. -/
def summerZones : List (String × Int) :=
  [("WEST", 0), ("BST", 0), ("BRST", -6), ("NDT", -7), ("ADT", -8), ("CLST", -8), ("EDT", -10),
    ("CDT", -12), ("MDT", -14), ("PDT", -16), ("AKDT", -18), ("HADT", -20), ("CEST", 2),
    ("MEST", 2), ("MESZ", 2), ("EEST", 4), ("MSD", 6), ("NZDT", 24)]

def zone? (name : String) : Option DateWord :=
  match List.lookup name zones, List.lookup name summerZones with
  | some n, _ => some (zone (30 * n))
  | none, some n => some (summerZone (30 * n))
  | none, none => none

def letterZone? (c : Char) : Option DateWord :=
  if c = 'Z' then some (zone 0)
  else if c = 'T' then some letterT
  else if c = 'J' then some localZone
  else if 'A' ≤ c && c ≤ 'I' then some (zone (60 * ((c.toNat : Int) - 64)))
  else if 'K' ≤ c && c ≤ 'M' then some (zone (60 * ((c.toNat : Int) - 65)))
  else if 'N' ≤ c && c ≤ 'Y' then some (zone (-60 * ((c.toNat : Int) - 77)))
  else none

def units : List (String × DateUnit) :=
  [("YEAR", .year), ("MONTH", .month), ("FORTNIGHT", .days 14), ("WEEK", .days 7),
    ("DAY", .days 1), ("HOUR", .seconds 3600), ("MINUTE", .seconds 60), ("MIN", .seconds 60),
    ("SECOND", .second), ("SEC", .second)]

def relative : List (String × DateWord) :=
  [("TOMORROW", shift 1), ("YESTERDAY", shift (-1)), ("TODAY", shift 0), ("NOW", shift 0),
    ("LAST", ordinal (-1)), ("THIS", ordinal 0), ("NEXT", ordinal 1), ("FIRST", ordinal 1),
    ("THIRD", ordinal 3), ("FOURTH", ordinal 4), ("FIFTH", ordinal 5), ("SIXTH", ordinal 6),
    ("SEVENTH", ordinal 7), ("EIGHTH", ordinal 8), ("NINTH", ordinal 9), ("TENTH", ordinal 10),
    ("ELEVENTH", ordinal 11), ("TWELFTH", ordinal 12), ("AGO", direction (-1)),
    ("HENCE", direction 1)]

/-- The months and the days of the week, also by other names. -/
def named : List (String × DateWord) :=
  (months.mapIdx fun i m => (m.toUpper, month (i + 1))) ++ [("SEPT", month 9)] ++
    (weekdays.mapIdx fun i d => (d.toUpper, weekday i)) ++
    [("TUES", weekday 2), ("WEDNES", weekday 3), ("THUR", weekday 4), ("THURS", weekday 4)]

/-- The month or the day of the week of a name, which may be cut behind three letters. -/
def named? (word : String) : Option DateWord :=
  let cs := word.toList
  if cs.length = 3 || (cs.length = 4 && cs.getLast? = some '.') then
    (named.find? fun n => n.1.toList.take 3 == cs.take 3).map (·.2)
  else List.lookup word named

def ofLetters (cs : List Char) : DateWord :=
  let word := (String.ofList (cs.take 19)).toUpper
  let single := if word.endsWith "S" then Text.Bytes.take (word.length - 1) word else word
  let halves : List (String × DateWord) :=
    [("AM", half false), ("A.M.", half false), ("PM", half true), ("P.M.", half true)]
  let found := [List.lookup word halves, named? word, zone? word,
    if word = "DST" then some summer else none,
    (List.lookup word units).map unit, (List.lookup single units).map unit,
    List.lookup word relative,
    match word.toList with
    | [c] => letterZone? c
    | _ => none,
    if word.toList.contains '.' then zone? (String.ofList (word.toList.filter (· != '.')))
    else none]
  (found.findSome? id).getD unknown

/-- The number at the head of a text that begins with a digit, and what follows. -/
def ofDigits (sign? : Option Char) (cs : List Char) : DateWord × List Char :=
  let whole := cs.takeWhile Char.isDigit
  let n := (Text.digits? whole).getD 0
  let isNegative := sign? = some '-'
  let rest := cs.drop whole.length
  let fraction? : Option (List Char) := match rest with
    | c :: d :: _ =>
      if (c = '.' || c = ',') && d.isDigit then some ((rest.drop 1).takeWhile Char.isDigit) else none
    | _ => none
  match fraction? with
  | some f =>
    let nine := (Text.digits? ((f ++ List.replicate 9 '0').take 9)).getD 0
    let isCut := (f.drop 9).any (· != '0')
    let size : Int := ((n * 1000000000 + nine : Nat) : Int)
    let value := if isNegative then -size - (if isCut then 1 else 0) else size
    (fraction sign?.isSome value, rest.drop (1 + f.length))
  | none =>
    let value : Int := if isNegative then -(n : Int) else n
    let numeral : Numeral := ⟨value, whole.length, isNegative⟩
    (if sign?.isSome then signed numeral else number numeral, rest)

/-- What is left of a text behind a remark in parentheses, within which there may be others. -/
def behindRemark : Nat → List Char → List Char
  | _, [] => []
  | depth, c :: cs =>
    if c = '(' then behindRemark (depth + 1) cs
    else if c = ')' then if depth ≤ 1 then cs else behindRemark (depth - 1) cs
    else behindRemark depth cs

def isBlank (c : Char) : Bool := c == ' ' || ('\t' ≤ c && c ≤ '\x0d')

def all : Nat → List Char → List DateWord
  | 0, _ => []
  | _, [] => []
  | fuel + 1, c :: cs =>
    if isBlank c then all fuel cs
    else if c.isDigit then
      let (w, rest) := ofDigits none (c :: cs)
      w :: all fuel rest
    else if c = '-' || c = '+' then
      let rest := cs.dropWhile isBlank
      if rest.head?.any Char.isDigit then
        let (w, rest) := ofDigits (some c) rest
        w :: all fuel rest
      else all fuel rest
    else if c.isAlpha then
      let isOfWord (d : Char) : Bool := d.isAlpha || d == '.'
      ofLetters (c :: cs.takeWhile isOfWord) :: all fuel (cs.dropWhile isOfWord)
    else if c = '(' then all fuel (behindRemark 0 (c :: cs))
    else sign c :: all fuel cs

def ofText (s : String) : List DateWord := all (s.length + 1) s.toList

end DateWord

/-- What has been read of a text. -/
structure Reading where
  year : Numeral
  month : Int
  day : Int
  hour : Int
  minute : Int
  second : Int
  nanosecond : Nat
  /-- The half of the day, if the hours are those of one. -/
  isAfternoon : Option Bool := none
  /-- How often a day, a time, a day of the week and a zone have been named. -/
  dates : Nat := 0
  times : Nat := 0
  weekdays : Nat := 0
  zones : Nat := 0
  /-- Whether a distance has been named. -/
  isShifted : Bool := false
  weekday : Nat := 0
  /-- Which of the days of the week it is: the one in this week, or the next of them, and so on. -/
  ordinal : Int := 0
  /-- The distance of the zone from the common time, in minutes. -/
  zone : Int := 0
  /-- Whether the zone is that of the user. -/
  isLocal : Bool := false
  addedYears : Int := 0
  addedMonths : Int := 0
  addedDays : Int := 0
  addedNanoseconds : Int := 0

namespace Reading

/-- The beginning, from which all that is not named is taken. -/
def starting (now : Timestamp) : Reading :=
  let s := now.secondOfDay
  { year := ⟨now.date.year, 0, false⟩, month := now.date.month, day := now.date.day
    hour := s / 3600, minute := s / 60 % 60, second := s % 60, nanosecond := now.fraction }

def add (r : Reading) (n : Int) (u : DateUnit) : Reading :=
  let r := { r with isShifted := true }
  match u with
  | .year => { r with addedYears := r.addedYears + n }
  | .month => { r with addedMonths := r.addedMonths + n }
  | .days size => { r with addedDays := r.addedDays + n * size }
  | .seconds size => { r with addedNanoseconds := r.addedNanoseconds + n * size * 1000000000 }

def setDate (r : Reading) (year : Numeral) (month day : Int) : Reading :=
  { r with year, month, day, dates := r.dates + 1 }

def setTime (r : Reading) (hour minute : Int) (nanoseconds : Int) (isAfternoon : Option Bool) :
    Reading :=
  { r with
    hour, minute, isAfternoon
    second := Int.fdiv nanoseconds 1000000000
    nanosecond := (Int.fmod nanoseconds 1000000000).toNat
    times := r.times + 1 }

def setZone (r : Reading) (minutes : Int) : Reading :=
  { r with zone := minutes, zones := r.zones + 1 }

/-- Takes a number that stands by itself: a year behind a day, a day in the form of eight digits, or
a time. -/
def addNumber (r : Reading) (n : Numeral) : Reading :=
  if 0 < r.dates && r.year.digits = 0 && !r.isShifted && (0 < r.times || 2 < n.digits) then
    { r with year := n }
  else if 4 < n.digits then
    r.setDate ⟨n.value / 10000, n.digits - 4, false⟩ (n.value / 100 % 100) (n.value % 100)
  else if n.digits ≤ 2 then r.setTime n.value 0 0 none
  else r.setTime (n.value / 100) (n.value % 100) 0 none

/-- Takes a distance in units: forwards, unless the next word says otherwise. -/
def addDistance (r : Reading) (n : Int) (u : DateUnit) : List DateWord → Reading × List DateWord
  | .direction sign :: rest => (r.add (sign * n) u, rest)
  | rest => (r.add n u, rest)

def addNanoseconds (r : Reading) (n : Int) : List DateWord → Reading × List DateWord
  | .direction sign :: rest =>
    ({ r with isShifted := true, addedNanoseconds := r.addedNanoseconds + sign * n }, rest)
  | rest => ({ r with isShifted := true, addedNanoseconds := r.addedNanoseconds + n }, rest)

/-- The minutes that a number with a sign, and perhaps another one behind a colon, are as the
distance of a zone. Two digits are hours. -/
def zoneMinutes? (n : Numeral) (minutes : Option Int) : Option Int :=
  let total := match minutes with
    | some m => if n.isNegative then n.value * 60 - m else n.value * 60 + m
    | none =>
      let v := if n.digits ≤ 2 then n.value * 100 else n.value
      Int.tdiv v 100 * 60 + Int.tmod v 100
  if -1440 ≤ total && total ≤ 1440 then some total else none

/-- Reads the distance of a zone behind its sign and number. -/
def zoneBehind? (n : Numeral) : List DateWord → Option (Int × List DateWord)
  | .sign ':' :: .number m :: rest => (zoneMinutes? n (some m.value)).map (·, rest)
  | .sign ':' :: _ => none
  | rest => (zoneMinutes? n none).map (·, rest)

/-- Reads the zone behind a time, if there is one. -/
def withZone? (r : Reading) : List DateWord → Option (Reading × List DateWord)
  | .signed n :: rest => (zoneBehind? n rest).map fun (m, rest) => (r.setZone m, rest)
  | rest => some (r, rest)

/-- Reads a time behind its hour and a colon. The half of the day may only stand where `mayHalve`. -/
def clock? (r : Reading) (mayHalve : Bool) (hour : Numeral) :
    List DateWord → Option (Reading × List DateWord)
  | .number m :: .sign ':' :: rest => do
    let (nanoseconds, rest) ← match rest with
      | .number s :: rest => some (s.value * 1000000000, rest)
      | .fraction false n :: rest => some (n, rest)
      | _ => none
    ending hour.value m.value nanoseconds rest
  | .number m :: rest => ending hour.value m.value 0 rest
  | _ => none
where
  /-- Reads what may stand behind the numbers. -/
  ending (h m nanoseconds : Int) : List DateWord → Option (Reading × List DateWord)
    | .half isAfternoon :: rest =>
      if mayHalve then some (r.setTime h m nanoseconds (some isAfternoon), rest) else none
    | rest => (r.setTime h m nanoseconds none).withZone? rest

/-- Reads the time behind a day and the letter between them. -/
def timeBehindDay? (r : Reading) : List DateWord → Option (Reading × List DateWord)
  | .number h :: .sign ':' :: rest => r.clock? false h rest
  | .number h :: .signed n :: rest => (r.setTime h.value 0 0 none).withZone? (.signed n :: rest)
  | _ => none

/-- Reads a distance that may stand behind a zone; only a number with a sign is one. -/
def distanceBehindZone (r : Reading) : List DateWord → Reading × List DateWord
  | .signed n :: .unit u :: rest => (r.add n.value u, rest)
  | rest => (r, rest)

/-- Reads what belongs together and begins with a number. -/
def itemOfNumber? (r : Reading) (n : Numeral) : List DateWord → Option (Reading × List DateWord)
  | .sign '/' :: .number m :: .sign '/' :: .number k :: rest =>
    some (if 4 ≤ n.digits then r.setDate n m.value k.value else r.setDate k n.value m.value, rest)
  | .sign '/' :: .number _ :: .sign '/' :: _ => none
  | .sign '/' :: .number m :: rest =>
    some ({ r with month := n.value, day := m.value, dates := r.dates + 1 }, rest)
  | .sign '/' :: _ => none
  | .sign ':' :: rest => r.clock? true n rest
  | .half isAfternoon :: rest => some (r.setTime n.value 0 0 (some isAfternoon), rest)
  | .signed m :: .signed d :: rest =>
    let r := r.setDate n (-m.value) (-d.value)
    match rest with
    | .letterT :: rest => r.timeBehindDay? rest
    | rest => some (r, rest)
  | .signed m :: .unit u :: rest => some ((r.addNumber n).add m.value u, rest)
  | .signed m :: rest => (r.setTime n.value 0 0 none).withZone? (.signed m :: rest)
  | .month m :: .signed y :: rest => some (r.setDate ⟨-y.value, y.digits, false⟩ m n.value, rest)
  | .month m :: .number y :: rest => some (r.setDate y m n.value, rest)
  | .month m :: rest => some ({ r with month := m, day := n.value, dates := r.dates + 1 }, rest)
  | .weekday d :: rest =>
    some ({ r with ordinal := n.value, weekday := d, weekdays := r.weekdays + 1 }, rest)
  | .unit u :: rest => some (r.addDistance n.value u rest)
  | rest => some (r.addNumber n, rest)

/-- Reads what belongs together at the head of some words. -/
def item? (r : Reading) : List DateWord → Option (Reading × List DateWord)
  | .number n :: rest => r.itemOfNumber? n rest
  | .signed n :: .unit u :: rest => some (r.addDistance n.value u rest)
  | .fraction _ n :: .unit (.seconds 1) :: rest => some (r.addNanoseconds n rest)
  | .month m :: .signed d :: .signed y :: rest =>
    some (r.setDate ⟨-y.value, y.digits, false⟩ m (-d.value), rest)
  | .month m :: .number d :: .sign ',' :: .number y :: rest => some (r.setDate y m d.value, rest)
  | .month _ :: .number _ :: .sign ',' :: _ => none
  | .month m :: .number d :: rest =>
    some ({ r with month := m, day := d.value, dates := r.dates + 1 }, rest)
  | .weekday d :: rest =>
    let rest := match rest with
      | .sign ',' :: rest => rest
      | rest => rest
    some ({ r with ordinal := 0, weekday := d, weekdays := r.weekdays + 1 }, rest)
  | .ordinal n :: .weekday d :: rest =>
    some ({ r with ordinal := n, weekday := d, weekdays := r.weekdays + 1 }, rest)
  | .ordinal n :: .unit u :: rest => some (r.addDistance n u rest)
  | .unit u :: rest => some (r.addDistance 1 u rest)
  | .shift days :: rest => some (r.add days (.days 1), rest)
  | .localZone :: rest => some ({ r with zones := r.zones + 1, isLocal := true }, rest)
  | .letterT :: rest => some ((r.setZone (-420)).distanceBehindZone rest)
  | .zone m :: .signed n :: .unit u :: rest => some ((r.setZone m).add n.value u, rest)
  | .zone m :: .signed n :: rest =>
    (zoneBehind? n rest).map fun (k, rest) => (r.setZone (m + k), rest)
  | .zone m :: .summer :: rest => some (r.setZone (m + 60), rest)
  | .zone m :: rest => some (r.setZone m, rest)
  | .summerZone m :: rest => some (r.setZone (m + 60), rest)
  | _ => none

def all? : Nat → Reading → List DateWord → Option Reading
  | _, r, [] => some r
  | 0, _, _ => none
  | fuel + 1, r, words => (r.item? words).bind fun (r, rest) => all? fuel r rest

def hour? (r : Reading) : Option Int :=
  match r.isAfternoon with
  | none => if 0 ≤ r.hour && r.hour < 24 then some r.hour else none
  | some isAfternoon =>
    if 0 < r.hour && r.hour ≤ 12 then
      some (r.hour % 12 + if isAfternoon then 12 else 0)
    else none

/-- The year that is meant: one of two digits is the nearest from 1969 to 2068. -/
def fullYear (r : Reading) : Int :=
  if r.year.digits = 2 then r.year.value + if r.year.value < 69 then 2000 else 1900
  else r.year.value

/-- The seconds since midnight and the nanoseconds after them; without a time it is midnight if a day
has been named. -/
def time? (r : Reading) : Option (Int × Nat) :=
  if 0 < r.times || (r.isShifted && r.dates = 0 && r.weekdays = 0) then
    r.hour?.bind fun h =>
      if 0 ≤ r.minute && r.minute < 60 && 0 ≤ r.second && r.second < 60 then
        some (h * 3600 + r.minute * 60 + r.second, r.nanosecond)
      else none
  else some (0, 0)

/-- The day that is named, if there is one like that. -/
def date? (r : Reading) : Option Date :=
  if r.month < 1 || 12 < r.month || r.day < 1 then none
  else
    let d : Date := ⟨r.fullYear, r.month.toNat, r.day.toNat⟩
    if d.monthLength < d.day then none else some d

/-- The instant that has been read, on the clocks of a zone. -/
def instant? (zone : Zone) (r : Reading) : Option Timestamp :=
  if 1 < r.times || 1 < r.dates || 1 < r.weekdays || 1 < r.zones then none
  else do
    let (seconds, nanoseconds) ← r.time?
    let d ← r.date?
    let d :=
      if 0 < r.weekdays && r.dates = 0 then
        let weeks := if 0 < r.ordinal && d.weekday != r.weekday then r.ordinal - 1 else r.ordinal
        Date.ofDays (d.days + ((r.weekday + 7 - d.weekday) % 7 : Nat) + 7 * weeks)
      else d
    let d := d.addMonths (12 * r.addedYears + r.addedMonths)
    let offset := if 0 < r.zones && !r.isLocal then r.zone * 60 else zone.offset
    let added := (nanoseconds : Int) + r.addedNanoseconds
    pure ⟨(d.days + r.addedDays) * 86400 + seconds - offset + Int.fdiv added 1000000000,
      (Int.fmod added 1000000000).toNat⟩

end Reading

/-- The instant that a text names in a zone. Behind an at sign stand the seconds since the start
of 1970. -/
def instant? (zone : Zone) (now : Timestamp) (s : String) : Option Timestamp :=
  match DateWord.ofText s with
  | [.sign '@', .number n] | [.sign '@', .signed n] => some ⟨n.value, 0⟩
  | [.sign '@', .fraction _ n] =>
    some ⟨Int.fdiv n 1000000000, (Int.fmod n 1000000000).toNat⟩
  | words =>
    (Reading.all? (words.length + 1) (.starting (zone.shown now)) words).bind
      (Reading.instant? zone)

/-- A year of two digits is the nearest from 1969 to 2068. -/
def nearYear (n : Nat) : Int := if n < 69 then 2000 + n else 1900 + n

/-- The instant of a day and a time, if there is such a one. -/
def instantOf? (year : Int) (month day hour minute second : Nat) : Option Timestamp :=
  let d : Date := ⟨year, month, day⟩
  if month = 0 || 12 < month || day = 0 || d.monthLength < day || 23 < hour || 59 < minute ||
      60 < second then none
  else some ⟨d.days * 86400 + (hour * 3600 + minute * 60 + second : Nat), 0⟩

/-- The digits in front of a point, and the seconds behind it. -/
def stampParts? (s : String) : Option (List Char × Nat) :=
  let cs := s.toList
  let front := cs.takeWhile (· != '.')
  if !front.all Char.isDigit then none
  else
    match cs.drop front.length with
    | [] => some (front, 0)
    | _ :: cs => if cs.length = 2 then (Text.digits? cs).map (front, ·) else none

/-- The instant that digits like `202001020304.05` stand for; the century, the year and the seconds
may be missing. -/
def stamp? (now : Timestamp) (s : String) : Option Timestamp := do
  let (front, second) ← stampParts? s
  let n ← Text.digits? front
  let year : Int ← match front.length with
    | 12 => some ((n / 100000000 : Nat) : Int)
    | 10 => some (nearYear (n / 100000000))
    | 8 => some now.date.year
    | _ => none
  instantOf? year (n / 1000000 % 100) (n / 10000 % 100) (n / 100 % 100) (n % 100) second

/-- The instant that digits like `010203042020.05` stand for, in which the year stands behind the
time; the century, the year and the seconds may be missing. -/
def setting? (now : Timestamp) (s : String) : Option Timestamp := do
  let (front, second) ← stampParts? s
  let n ← Text.digits? (front.take 8)
  let year : Int ← match front.length, Text.digits? (front.drop 8) with
    | 12, some y => some y
    | 10, some y => some (nearYear y)
    | 8, _ => some now.date.year
    | _, _ => none
  instantOf? year (n / 1000000 % 100) (n / 10000 % 100) (n / 100 % 100) (n % 100) second

end PipelineRunner.Calendar
