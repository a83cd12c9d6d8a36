/-!
# Timestamp patterns

A pattern is text in which a percent sign starts a specifier: a letter, with a padding sign before
the numeric ones, or one of the longer forms for fractions and offsets. `Pattern.items?` reads it
once, one character at a time, and refuses a pattern with any specifier that does not exist.
-/

namespace ConsoleLog.Time

inductive Padding where
  | bare | spaces | zeros
  deriving DecidableEq, Repr

inductive Field where
  | year | century | yearOfCentury
  | isoYear | isoYearOfCentury | isoWeek
  | quarter | month | day | dayOfYear
  | sundayWeek | mondayWeek | weekday | isoWeekday
  | hour | hour12 | minute | second | nanos | epochSeconds
  deriving DecidableEq, Repr

/-- How precisely an offset from UTC is written, and whether colons part its numbers. -/
inductive OffsetForm where
  | compact | minutes | seconds | hours
  deriving DecidableEq, Repr

inductive Item where
  | literal (c : Char)
  | number (f : Field) (p : Padding)
  | monthName (short : Bool)
  | weekdayName (short : Bool)
  | halfDay (upper : Bool)
  /-- A point and 3, 6 or 9 digits, as few as are exact, or nothing for a whole second. -/
  | fraction
  /-- A set number of digits of the fraction, the others cut off. -/
  | digits (places : Nat) (point : Bool)
  | offset (form : OffsetForm)
  /-- An offset in whichever form it comes: a pattern may hold it, and it cannot be written. -/
  | anyOffset
  | zone
  deriving DecidableEq, Repr

namespace Pattern

/-- The numeric specifiers, with the padding that they have of their own. -/
def field? : Char → Option (Field × Padding)
  | 'Y' => some (.year, .zeros)
  | 'C' => some (.century, .zeros)
  | 'y' => some (.yearOfCentury, .zeros)
  | 'q' => some (.quarter, .bare)
  | 'm' => some (.month, .zeros)
  | 'd' => some (.day, .zeros)
  | 'e' => some (.day, .spaces)
  | 'w' => some (.weekday, .bare)
  | 'u' => some (.isoWeekday, .bare)
  | 'U' => some (.sundayWeek, .zeros)
  | 'W' => some (.mondayWeek, .zeros)
  | 'G' => some (.isoYear, .zeros)
  | 'g' => some (.isoYearOfCentury, .zeros)
  | 'V' => some (.isoWeek, .zeros)
  | 'j' => some (.dayOfYear, .zeros)
  | 'H' => some (.hour, .zeros)
  | 'k' => some (.hour, .spaces)
  | 'I' => some (.hour12, .zeros)
  | 'l' => some (.hour12, .spaces)
  | 'M' => some (.minute, .zeros)
  | 'S' => some (.second, .zeros)
  | 'f' => some (.nanos, .zeros)
  | 's' => some (.epochSeconds, .bare)
  | _ => none

def number (f : Field) : Item := .number f .zeros

def slashDate : List Item :=
  [number .month, .literal '/', number .day, .literal '/', number .yearOfCentury]

def dashDate : List Item :=
  [number .year, .literal '-', number .month, .literal '-', number .day]

def hourMinute : List Item := [number .hour, .literal ':', number .minute]

def clock : List Item := hourMinute ++ [.literal ':', number .second]

def named? : Char → Option (List Item)
  | 'b' | 'h' => some [.monthName true]
  | 'B' => some [.monthName false]
  | 'a' => some [.weekdayName true]
  | 'A' => some [.weekdayName false]
  | 'P' => some [.halfDay false]
  | 'p' => some [.halfDay true]
  | 'D' | 'x' => some slashDate
  | 'F' => some dashDate
  | 'v' => some [.number .day .spaces, .literal '-', .monthName true, .literal '-', number .year]
  | 'R' => some hourMinute
  | 'T' | 'X' => some clock
  | 'r' =>
    some [number .hour12, .literal ':', number .minute, .literal ':', number .second, .literal ' ',
      .halfDay true]
  | 'c' =>
    some ([.weekdayName true, .literal ' ', .monthName true, .literal ' ', .number .day .spaces,
      .literal ' '] ++ clock ++ [.literal ' ', number .year])
  | '+' => some (dashDate ++ [.literal 'T'] ++ clock ++ [.fraction, .offset .minutes])
  | 'z' => some [.offset .compact]
  | 'Z' => some [.zone]
  | 't' => some [.literal '\t']
  | 'n' => some [.literal '\n']
  | '%' => some [.literal '%']
  | _ => none

def single? (c : Char) : Option (List Item) :=
  match field? c with
  | some (f, p) => some [.number f p]
  | none => named? c

/-- What has been read of a specifier. -/
inductive Reading where
  | text
  | percent
  | padding (p : Padding)
  | hash
  | colons (n : Nat)
  | point
  | pointDigit (places : Nat)
  | digit (places : Nat)
  deriving DecidableEq, Repr

def places? : Char → Option Nat
  | '3' => some 3
  | '6' => some 6
  | '9' => some 9
  | _ => none

def padding? : Char → Option Padding
  | '-' => some .bare
  | '_' => some .spaces
  | '0' => some .zeros
  | _ => none

def colonForm : Nat → OffsetForm
  | 1 => .minutes
  | 2 => .seconds
  | _ => .hours

def afterPercent (c : Char) : Option (Reading × List Item) :=
  match padding? c, places? c with
  | some p, _ => some (.padding p, [])
  | none, some n => some (.digit n, [])
  | none, none =>
    if c = '#' then some (.hash, [])
    else if c = ':' then some (.colons 1, [])
    else if c = '.' then some (.point, [])
    else (single? c).map fun items => (.text, items)

/-- One more character: what is read then, and the items that it completes. -/
def step (r : Reading) (c : Char) : Option (Reading × List Item) :=
  match r with
  | .text => if c = '%' then some (.percent, []) else some (.text, [.literal c])
  | .percent => afterPercent c
  | .padding p => (field? c).map fun f => (.text, [.number f.1 p])
  | .hash => if c = 'z' then some (.text, [.anyOffset]) else none
  | .colons n =>
    if c = 'z' then some (.text, [.offset (colonForm n)])
    else if c = ':' ∧ n < 3 then some (.colons (n + 1), [])
    else none
  | .point =>
    if c = 'f' then some (.text, [.fraction])
    else (places? c).map fun n => (.pointDigit n, [])
  | .pointDigit n => if c = 'f' then some (.text, [.digits n true]) else none
  | .digit n => if c = 'f' then some (.text, [.digits n false]) else none

/-- A pattern that ends inside a specifier is refused. -/
def itemsFrom? : Reading → List Char → Option (List Item)
  | .text, [] => some []
  | _, [] => none
  | r, c :: cs =>
    (step r c).bind fun s => (itemsFrom? s.1 cs).map (s.2 ++ ·)

def items? (cs : List Char) : Option (List Item) := itemsFrom? .text cs

end Pattern

structure Format where
  text : String
  items : List Item
  items_eq : Pattern.items? text.toList = some items

namespace Format

def ofText? (text : String) : Option Format :=
  match h : Pattern.items? text.toList with
  | some items => some ⟨text, items, h⟩
  | none => none

end Format

end ConsoleLog.Time
