import ConsoleLog.Time.Calendar
import ConsoleLog.Time.Instant
import ConsoleLog.Time.Pattern

/-!
# Moments on a calendar and clock

A moment is an instant seen in a zone. `Format.render?` writes a moment by a pattern; it fails only
at an item that has no text.
-/

namespace ConsoleLog.Time

/-- UTC, or local time that many seconds east of it. -/
inductive Zone where
  | utc
  | east (seconds : Int)
  deriving DecidableEq, Repr

structure Moment where
  /-- Seconds of the epoch, in UTC. -/
  seconds : Int
  nanos : Nat
  zone : Zone

structure Clock where
  now : Instant
  /-- The local time's offset in seconds, counted eastwards. -/
  localOffset : Int

namespace Zone

def offset : Zone → Int
  | .utc => 0
  | .east s => s

end Zone

namespace Written

/-- Two digits; `v` may be any byte, whose tens are one character counted on from `0`. -/
def twoDigits (p : Padding) (v : Nat) : List Char :=
  let ones := Char.ofNat (48 + v % 10)
  match v / 10, p with
  | 0, .bare => [ones]
  | 0, .spaces => [' ', ones]
  | tens, _ => [Char.ofNat (48 + tens), ones]

def byteDigits (p : Padding) (z : Int) : List Char := twoDigits p (z % 256).toNat

/-- A number filled up to a width that counts its sign. -/
def filled (p : Padding) (width : Nat) (plus : Bool) (z : Int) : List Char :=
  let sign := if z < 0 then ['-'] else if plus then ['+'] else []
  let digits := Text.decimal z.natAbs
  match p with
  | .bare => sign ++ digits
  | .zeros => sign ++ Text.padStart '0' (width - sign.length) digits
  | .spaces => Text.padStart ' ' width (sign ++ digits)

/-- Years outside 0 to 9999 always show their sign. -/
def year (p : Padding) (y : Int) : List Char :=
  if 0 ≤ y ∧ y ≤ 9999 then filled p 4 false y else filled p 5 true y

def two (n : Nat) : List Char := twoDigits .zeros n

/-- Sign, hours and what the form shows below them; half a minute rounds up. -/
def offset (form : OffsetForm) (z : Int) : List Char :=
  let sign := if z < 0 then '-' else '+'
  let s := z.natAbs
  let m := (s + 30) / 60
  sign :: match form with
    | .compact => two (m / 60) ++ two (m % 60)
    | .minutes => two (m / 60) ++ ':' :: two (m % 60)
    | .seconds => two (s / 3600) ++ ':' :: two (s / 60 % 60) ++ ':' :: two (s % 60)
    | .hours => two (s / 3600)

/-- Seconds are shown only if there are any. -/
def zone : Zone → List Char
  | .utc => ['U', 'T', 'C']
  | .east z => if z % 60 = 0 then offset .minutes z else offset .seconds z

def fractionDigits (places nanos : Nat) : List Char :=
  Text.padStart '0' places (Text.decimal (nanos / Nat.pow 10 (9 - places)))

def fraction (nanos : Nat) : List Char :=
  if nanos = 0 then []
  else if nanos % 1000000 = 0 then '.' :: fractionDigits 3 nanos
  else if nanos % 1000 = 0 then '.' :: fractionDigits 6 nanos
  else '.' :: fractionDigits 9 nanos

def monthNames : List String :=
  ["January", "February", "March", "April", "May", "June", "July", "August", "September",
   "October", "November", "December"]

def weekdayNames : List String :=
  ["Sunday", "Monday", "Tuesday", "Wednesday", "Thursday", "Friday", "Saturday"]

def nameAt (names : List String) (i : Nat) (short : Bool) : List Char :=
  let name := (names.getD i "").toList
  if short then name.take 3 else name

end Written

namespace Moment

def ofInstant (i : Instant) (z : Zone) : Moment := ⟨i.seconds.toInt, i.nanos, z⟩

def localSeconds (m : Moment) : Int := m.seconds + m.zone.offset

def day (m : Moment) : Int := m.localSeconds / 86400

def secondOfDay (m : Moment) : Nat := (m.localSeconds % 86400).toNat

def hour (m : Moment) : Nat := m.secondOfDay / 3600

def hour12 (m : Moment) : Nat := if m.hour % 12 = 0 then 12 else m.hour % 12

def minute (m : Moment) : Nat := m.secondOfDay / 60 % 60

def second (m : Moment) : Nat := m.secondOfDay % 60

def date (m : Moment) : Date := Calendar.date m.day

def field (m : Moment) (p : Padding) : Field → List Char
  | .year => Written.year p m.date.year
  | .century => Written.byteDigits p (m.date.year / 100)
  | .yearOfCentury => Written.byteDigits p (m.date.year % 100)
  | .isoYear => Written.year p (Calendar.isoYear m.day)
  | .isoYearOfCentury => Written.byteDigits p (Calendar.isoYear m.day % 100)
  | .isoWeek => Written.twoDigits p (Calendar.isoWeek m.day)
  | .quarter => Text.decimal ((m.date.month + 2) / 3)
  | .month => Written.twoDigits p m.date.month
  | .day => Written.twoDigits p m.date.day
  | .dayOfYear => Written.filled p 3 false (Calendar.dayIndex m.day + 1)
  | .sundayWeek => Written.twoDigits p (Calendar.sundayWeek m.day)
  | .mondayWeek => Written.twoDigits p (Calendar.mondayWeek m.day)
  | .weekday => Text.decimal (Calendar.weekday m.day)
  | .isoWeekday => Text.decimal (Calendar.daysFromMonday m.day + 1)
  | .hour => Written.twoDigits p m.hour
  | .hour12 => Written.twoDigits p m.hour12
  | .minute => Written.twoDigits p m.minute
  | .second => Written.twoDigits p m.second
  | .nanos => Written.filled p 9 false m.nanos
  | .epochSeconds => Written.filled p 9 false m.seconds

def halfDay (m : Moment) (upper : Bool) : List Char :=
  match upper with
  | true => [if m.hour < 12 then 'A' else 'P', 'M']
  | false => [if m.hour < 12 then 'a' else 'p', 'm']

def item? (m : Moment) : Item → Option (List Char)
  | .literal c => some [c]
  | .number f p => some (m.field p f)
  | .monthName short => some (Written.nameAt Written.monthNames (m.date.month - 1) short)
  | .weekdayName short => some (Written.nameAt Written.weekdayNames (Calendar.weekday m.day) short)
  | .halfDay upper => some (m.halfDay upper)
  | .fraction => some (Written.fraction m.nanos)
  | .digits n point => some ((if point then ['.'] else []) ++ Written.fractionDigits n m.nanos)
  | .offset form => some (Written.offset form m.zone.offset)
  | .anyOffset => none
  | .zone => some (Written.zone m.zone)

def items? (m : Moment) : List Item → Option (List Char)
  | [] => some []
  | i :: is => (m.item? i).bind fun cs => (m.items? is).map (cs ++ ·)

end Moment

namespace Format

def render? (f : Format) (m : Moment) : Option String := (m.items? f.items).map String.ofList

end Format

end ConsoleLog.Time
