/-!
# The calendar

Days are counted from the first of January 1970, and the rules of the Gregorian calendar hold for
all years. A week belongs to the year that holds its Thursday.
-/

namespace ConsoleLog.Time

structure Date where
  year : Int
  month : Nat
  day : Nat
  deriving DecidableEq, Repr

namespace Calendar

def yearStart (y : Int) : Int :=
  let p := y - 1
  365 * p + p / 4 - p / 100 + p / 400 - 719162

def isLeap (y : Int) : Bool := y % 4 == 0 && (y % 100 != 0 || y % 400 == 0)

/-- The mean length of a year gives the year of a day up to one. -/
def yearOf (n : Int) : Int :=
  let y := (n + 719162) * 400 / 146097 + 1
  if n < yearStart y then y - 1
  else if yearStart (y + 1) ≤ n then y + 1
  else y

def monthLengths (y : Int) : List Nat :=
  [31, if isLeap y then 29 else 28, 31, 30, 31, 30, 31, 31, 30, 31, 30, 31]

/-- The month and day of the month that lie `left` days after the first of month `m`. -/
def monthDay (m left : Nat) : List Nat → Nat × Nat
  | [] => (m, left + 1)
  | len :: lens => if left < len then (m, left + 1) else monthDay (m + 1) (left - len) lens

def dayIndex (n : Int) : Nat := (n - yearStart (yearOf n)).toNat

def date (n : Int) : Date :=
  let y := yearOf n
  let (m, d) := monthDay 1 (dayIndex n) (monthLengths y)
  ⟨y, m, d⟩

def weekday (n : Int) : Nat := ((n + 4) % 7).toNat

def daysFromMonday (n : Int) : Nat := (weekday n + 6) % 7

/-- Weeks begin on Sunday; the days before the first Sunday are week 0. -/
def sundayWeek (n : Int) : Nat := (dayIndex n + 7 - weekday n) / 7

/-- Weeks begin on Monday; the days before the first Monday are week 0. -/
def mondayWeek (n : Int) : Nat := (dayIndex n + 7 - daysFromMonday n) / 7

def thursday (n : Int) : Int := n - daysFromMonday n + 3

def isoYear (n : Int) : Int := yearOf (thursday n)

def isoWeek (n : Int) : Nat := dayIndex (thursday n) / 7 + 1

end Calendar

end ConsoleLog.Time
