import PipelineRunner.Text.Bytes
import PipelineRunner.Text.Basic
import PipelineRunner.Time.Basic

/-!
Zones of time, each with a name and its distance from the common time: a text can state a zone by a
name, and behind it how long ago the common time was when clocks show the same there. Then the
calendar, and instants as a format asks for them: what stands behind a percent sign is an element of
the date or of the time, perhaps with the layout that it is to have.
-/

namespace PipelineRunner

/-- A zone of time. -/
structure Zone where
  name : String
  /-- So many seconds its clocks are ahead of the common time. -/
  offset : Int
  deriving DecidableEq, Repr

namespace Zone

def common : Zone := ⟨"UTC", 0⟩

/-- An instant as the clocks of the zone show it. -/
def shown (z : Zone) (t : Timestamp) : Timestamp := { t with seconds := t.seconds + z.offset }

def sign (z : Zone) : String := if z.offset < 0 then "-" else "+"

def hours (z : Zone) : Nat := z.offset.natAbs / 3600

def minutes (z : Zone) : Nat := z.offset.natAbs / 60 % 60

def seconds (z : Zone) : Nat := z.offset.natAbs % 60

/-- The seconds that hours, minutes and seconds with colons between them are. -/
def span? (cs : List Char) : Option Nat :=
  match (Text.splitAt ':' cs).mapM Text.digits? with
  | some [h] => some (h * 3600)
  | some [h, m] => some (h * 3600 + m * 60)
  | some [h, m, s] => some (h * 3600 + m * 60 + s)
  | _ => none

/-- The zone that a text states. One whose distance cannot be read has the common time. -/
def ofText (text : String) : Zone :=
  let cs := text.toList
  let (name, rest) : List Char × List Char := match cs with
    | '<' :: cs => (cs.takeWhile (· != '>'), (cs.dropWhile (· != '>')).drop 1)
    | cs => (cs.takeWhile Char.isAlpha, cs.dropWhile Char.isAlpha)
  if name.length < 3 then common
  else
    let distance? : Option Int := match rest with
      | '-' :: cs => (span? cs).map fun n => (n : Int)
      | '+' :: cs => (span? cs).map fun n => -(n : Int)
      | cs => (span? cs).map fun n => -(n : Int)
    ⟨String.ofList name, distance?.getD 0⟩

end Zone

namespace Date

/-- The days from 1 January 1970 to a day. A day behind the end of its month counts on. -/
def days (d : Date) : Int :=
  let year := if d.month ≤ 2 then d.year - 1 else d.year
  let era := Int.fdiv year 400
  let yearOfEra := (Int.fmod year 400).toNat
  let monthFromMarch := if 2 < d.month then d.month - 3 else d.month + 9
  let dayOfYear : Int := ((153 * monthFromMarch + 2) / 5 : Nat) + (d.day : Int) - 1
  era * 146097 + (yearOfEra * 365 + yearOfEra / 4 - yearOfEra / 100 : Nat) + dayOfYear - 719468

/-- The day of the week; Sunday is the first. -/
def weekday (d : Date) : Nat := (Int.fmod (d.days + 4) 7).toNat

def dayOfYear (d : Date) : Nat := (d.days - (⟨d.year, 1, 1⟩ : Date).days).toNat + 1

def addMonths (d : Date) (n : Int) : Date :=
  let months := d.year * 12 + ((d.month : Int) - 1) + n
  ⟨Int.fdiv months 12, (Int.fmod months 12).toNat + 1, d.day⟩

def isLeap (year : Int) : Bool :=
  Int.fmod year 4 == 0 && (Int.fmod year 100 != 0 || Int.fmod year 400 == 0)

def monthLength (d : Date) : Nat :=
  if d.month = 2 then (if isLeap d.year then 29 else 28)
  else if [4, 6, 9, 11].contains d.month then 30 else 31

end Date

namespace Calendar

def weekdays : List String :=
  ["Sunday", "Monday", "Tuesday", "Wednesday", "Thursday", "Friday", "Saturday"]

def months : List String :=
  ["January", "February", "March", "April", "May", "June", "July", "August", "September",
    "October", "November", "December"]

def short (name : String) : String := Text.Bytes.take 3 name

/-- The position of a name of which a text is the whole, or the beginning of three letters or
more. -/
def position? (names : List String) (text : String) : Option Nat :=
  names.findIdx? fun n =>
    3 ≤ text.length && n.toLower.startsWith text.toLower

/-- The week of the year by ISO 8601, and the year that it belongs to. -/
def isoWeek (d : Date) : Int × Nat :=
  let fromMonday := (d.weekday + 6) % 7
  let thursday := Date.ofDays (d.days - fromMonday + 3)
  (thursday.year, (thursday.dayOfYear - 1) / 7 + 1)

/-- A number that is filled up with zeros, or with blanks. -/
def filled (c : Char) (width n : Nat) : String :=
  let digits := toString n
  Text.Bytes.fill c (width - digits.length) ++ digits

def hour (t : Timestamp) : Nat := t.secondOfDay / 3600

def hourOfHalf (t : Timestamp) : Nat := (hour t + 11) % 12 + 1

/-- What a letter behind a percent sign stands for. -/
inductive Element where
  /-- A number that is filled up to so many digits. -/
  | number (fill : Char) (digits n : Nat)
  /-- A name, of which other letters may be asked for. -/
  | name (s : String)
  /-- A name that has lower case for its other letters. -/
  | capitals (s : String)
  | text (s : String)
  | fraction
  | zone
  deriving DecidableEq, Repr

/-- What a letter behind a percent sign stands for. -/
def element? (zone : Zone) (t : Timestamp) (c : Char) : Option Element :=
  let d := t.date
  let two (n : Nat) : Option Element := some (.number '0' 2 n)
  let digits (n : Nat) : String := Text.padded 2 n
  let year (y : Int) : Element :=
    if y < 0 then .text ("-" ++ filled '0' 4 y.natAbs) else .number '0' 4 y.toNat
  let yearText := (if d.year < 0 then "-" else "") ++ filled '0' 4 d.year.natAbs
  let day := weekdays.getD d.weekday ""
  let month := months.getD (d.month - 1) ""
  let half := if hour t < 12 then "AM" else "PM"
  match c with
  | 'Y' => some (year d.year)
  | 'C' => two (d.year.toNat / 100)
  | 'y' => two (d.year.toNat % 100)
  | 'm' => two d.month
  | 'd' => two d.day
  | 'e' => some (.number ' ' 2 d.day)
  | 'H' => two (hour t)
  | 'I' => two (hourOfHalf t)
  | 'k' => some (.number ' ' 2 (hour t))
  | 'l' => some (.number ' ' 2 (hourOfHalf t))
  | 'M' => two (t.secondOfDay / 60 % 60)
  | 'S' => two (t.secondOfDay % 60)
  | 's' =>
    let seconds := t.seconds - zone.offset
    some (if seconds < 0 then .text (toString seconds) else .number '0' 1 seconds.toNat)
  | 'N' => some .fraction
  | 'p' => some (.capitals half)
  | 'P' => some (.text half.toLower)
  | 'A' => some (.name day)
  | 'a' => some (.name (short day))
  | 'B' => some (.name month)
  | 'b' | 'h' => some (.name (short month))
  | 'j' => some (.number '0' 3 d.dayOfYear)
  | 'q' => some (.number '0' 1 ((d.month + 2) / 3))
  | 'u' => some (.number '0' 1 ((d.weekday + 6) % 7 + 1))
  | 'w' => some (.number '0' 1 d.weekday)
  | 'U' => two ((d.dayOfYear + 6 - d.weekday) / 7)
  | 'W' => two ((d.dayOfYear + 6 - (d.weekday + 6) % 7) / 7)
  | 'V' => two (isoWeek d).2
  | 'G' => some (year (isoWeek d).1)
  | 'g' => two ((isoWeek d).1.toNat % 100)
  | 'Z' => some (.capitals zone.name)
  | 'z' => some .zone
  | 'n' => some (.text "\n")
  | 't' => some (.text "\t")
  | 'F' =>
    let plus := if 9999 < d.year then "+" else ""
    some (.text (plus ++ yearText ++ "-" ++ digits d.month ++ "-" ++ digits d.day))
  | 'D' | 'x' =>
    some (.text (digits d.month ++ "/" ++ digits d.day ++ "/" ++ digits (d.year.toNat % 100)))
  | 'T' | 'X' => some (.text t.clockText)
  | 'R' => some (.text (Text.Bytes.take 5 t.clockText))
  | 'r' =>
    some (.text (digits (hourOfHalf t) ++ Text.Bytes.drop 2 t.clockText ++ " " ++ half))
  | 'c' =>
    some (.text (short day ++ " " ++ short month ++ " " ++ filled ' ' 2 d.day ++ " " ++
      t.clockText ++ " " ++ yearText))
  | _ => none

/-- What is said about the layout of an element in front of its letter. -/
structure Layout where
  /-- What it is filled up with: zeros, blanks (an underscore), or nothing (a hyphen). -/
  fill : Option Char := none
  raises : Bool := false
  turnsCase : Bool := false
  width : Option Nat := none
  deriving DecidableEq, Repr

namespace Layout

/-- A text that is filled up to the width. -/
def widened (l : Layout) (s : String) : String :=
  if l.fill = some '-' then s
  else
    Text.Bytes.fill (if l.fill = some '0' then '0' else ' ') (l.width.getD 0 - s.length) ++ s

def apply (l : Layout) (zone : Zone) (t : Timestamp) : Element → String
  | .number fill digits n =>
    match l.fill with
    | some '-' => toString n
    | some '_' => filled ' ' (l.width.getD digits) n
    | some _ => filled '0' (l.width.getD digits) n
    | none => filled fill (l.width.getD digits) n
  | .name s => l.widened (if l.raises || l.turnsCase then s.toUpper else s)
  | .capitals s => l.widened (if l.turnsCase then s.toLower else s)
  | .text s => l.widened (if l.raises then s.toUpper else s)
  | .fraction =>
    let width := l.width.getD 9
    let digits := (Text.padded 9 t.nanoseconds).toList ++ List.replicate (width - 9) '0'
    String.ofList (digits.take width)
  | .zone =>
    let digits := toString (zone.hours * 100 + zone.minutes)
    let gap := Nat.max (l.width.getD 0) 5 - 1 - digits.length
    match l.fill with
    | some '-' => zone.sign ++ digits
    | some '_' => Text.Bytes.fill ' ' gap ++ zone.sign ++ digits
    | _ => zone.sign ++ Text.Bytes.fill '0' gap ++ digits

end Layout

/-- The distance of a zone with colons between its parts: with one, two or three in front of its
letter it has so many parts as that asks for. -/
def zoneText? (zone : Zone) : Nat → Option String
  | 1 => some (zone.sign ++ Text.padded 2 zone.hours ++ ":" ++ Text.padded 2 zone.minutes)
  | 2 =>
    some (zone.sign ++ Text.padded 2 zone.hours ++ ":" ++ Text.padded 2 zone.minutes ++ ":" ++
      Text.padded 2 zone.seconds)
  | 3 =>
    let parts := [zone.hours] ++
      (if zone.minutes = 0 && zone.seconds = 0 then [] else [zone.minutes]) ++
      (if zone.seconds = 0 then [] else [zone.seconds])
    some (zone.sign ++ Text.join ":" (parts.map (Text.padded 2)))
  | _ => none

/-- The text that a format makes of what the clocks of a zone show. What it does not know stands for
itself. -/
def format (zone : Zone) (t : Timestamp) : Nat → List Char → List Char
  | 0, _ => []
  | _, [] => []
  | fuel + 1, '%' :: '%' :: cs => '%' :: format zone t fuel cs
  | fuel + 1, '%' :: cs =>
    let flags := cs.takeWhile ['-', '_', '0', '+', '^', '#'].contains
    let digits := (cs.drop flags.length).takeWhile Char.isDigit
    let cs := cs.drop (flags.length + digits.length)
    let colons := cs.takeWhile (· == ':')
    let cs := cs.drop colons.length
    let (eras, cs) : List Char × List Char := match cs with
      | 'E' :: cs => (['E'], cs)
      | 'O' :: cs => (['O'], cs)
      | cs => ([], cs)
    let layout : Layout :=
      { fill := (flags.filter ['-', '_', '0'].contains).getLast?
        raises := flags.contains '^', turnsCase := flags.contains '#'
        width := Text.digits? digits }
    let text? : Option String := match cs with
      | 'z' :: _ => 
        if colons.isEmpty then some (layout.apply zone t .zone) else zoneText? zone colons.length
      | c :: _ => 
        if colons.isEmpty then (element? zone t c).map (layout.apply zone t) else none
      | [] => none
    let raw := layout.widened
      (String.ofList ('%' :: (flags ++ digits ++ colons ++ eras ++ cs.take 1)))
    (text?.getD raw).toList ++ format zone t fuel (cs.drop 1)
  | fuel + 1, c :: cs => c :: format zone t fuel cs

/-- The text that a format makes of an instant in a zone. -/
def textIn (zone : Zone) (t : Timestamp) (f : String) : String :=
  String.ofList (format zone (zone.shown t) (f.length + 1) f.toList)

/-- The text that a format makes of an instant in the common time. -/
def text (t : Timestamp) (f : String) : String := textIn .common t f

end Calendar
end PipelineRunner
