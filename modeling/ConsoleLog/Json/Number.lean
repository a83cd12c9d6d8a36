import ConsoleLog.Text.Numeral

/-!
# JSON numbers

A numeral is a sign, whole digits without a leading zero, and at will a fraction and an exponent. A
whole numeral that a word of 64 bits holds is an integer. Any other is a double, made of the digits
that fit in a word and a power of ten, and there is none for a numeral beyond the doubles.
-/

namespace ConsoleLog.Json

/-- A numeral as it is written. -/
structure Numeral where
  negative : Bool
  whole : List Char
  /-- The digits after the point; none if there is no point. -/
  fraction : List Char
  exponent : Option Int
  deriving DecidableEq, Repr

inductive Number where
  | integer (z : Int)
  | double (x : Float)

/-! ## The grammar -/

/-- A run of digits, at least one of them. -/
def digits? (cs : List Char) : Option (List Char × List Char) :=
  match cs.takeWhile Char.isDigit with
  | [] => none
  | ds => some (ds, cs.dropWhile Char.isDigit)

def whole? (cs : List Char) : Option (List Char × List Char) :=
  match digits? cs with
  | some ('0' :: _ :: _, _) => none
  | r => r

def fraction? : List Char → Option (List Char × List Char)
  | '.' :: cs => digits? cs
  | cs => some ([], cs)

def natOf (ds : List Char) : Nat := Nat.ofDigitChars 10 ds 0

def exponentDigits? : List Char → Option (Int × List Char)
  | '-' :: cs => (digits? cs).map fun r => (-(natOf r.1 : Int), r.2)
  | '+' :: cs => (digits? cs).map fun r => ((natOf r.1 : Int), r.2)
  | cs => (digits? cs).map fun r => ((natOf r.1 : Int), r.2)

def exponent? : List Char → Option (Option Int × List Char)
  | 'e' :: cs => (exponentDigits? cs).map fun r => (some r.1, r.2)
  | 'E' :: cs => (exponentDigits? cs).map fun r => (some r.1, r.2)
  | cs => some (none, cs)

def unsigned? (negative : Bool) (cs : List Char) : Option (Numeral × List Char) := do
  let (whole, cs) ← whole? cs
  let (fraction, cs) ← fraction? cs
  let (exponent, cs) ← exponent? cs
  return (⟨negative, whole, fraction, exponent⟩, cs)

def numeral? : List Char → Option (Numeral × List Char)
  | '-' :: cs => unsigned? true cs
  | cs => unsigned? false cs

/-! ## The value -/

/-- Digits appended to a number as long as a word of 64 bits holds it, and those that are left. -/
def appendDigits (n : Nat) : List Char → Nat × List Char
  | [] => (n, [])
  | d :: ds =>
    let m := 10 * n + (d.toNat - '0'.toNat)
    if m < UInt64.size then appendDigits m ds else (n, d :: ds)

def tenTo (n : Nat) : Float := Float.ofScientific 1 false n

/-- A significand times a power of ten, below the doubles in two steps. -/
def scale? (x : Float) (e : Int) : Option Float :=
  if x == 0 then some x
  else if 308 < e then none
  else if 0 ≤ e then
    let y := x * tenTo e.toNat
    if y.isInf then none else some y
  else if -308 ≤ e then some (x / tenTo (-e).toNat)
  else if -616 ≤ e then some (x / tenTo 308 / tenTo (-(e + 308)).toNat)
  else some 0

namespace Numeral

def signed (n : Numeral) (x : Float) : Float := if n.negative then -x else x

/-- Whole digits beyond a word raise the exponent, and the digits of the fraction that fit in it
lower the exponent. -/
def double? (n : Numeral) : Option Float :=
  let (w, beyond) := appendDigits 0 n.whole
  let (m, unread) := appendDigits w n.fraction
  let places : Int := n.fraction.length - unread.length
  (scale? (Float.ofNat m) (beyond.length - places + n.exponent.getD 0)).map n.signed

/-- The integers of 64 bits, below zero the signed ones. Zero with a sign is a double. -/
def integer? (n : Numeral) : Option Int :=
  if n.fraction.isEmpty && n.exponent.isNone then
    let m := natOf n.whole
    if n.negative then
      if 0 < m ∧ Int64.minValue.toInt ≤ -(m : Int) then some (-(m : Int)) else none
    else if m < UInt64.size then some m else none
  else none

def number? (n : Numeral) : Option Number :=
  match n.integer? with
  | some z => some (.integer z)
  | none => n.double?.map .double

end Numeral

end ConsoleLog.Json
