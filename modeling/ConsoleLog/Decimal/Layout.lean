import ConsoleLog.Decimal.Shortest
import ConsoleLog.Text.Numeral

/-!
# Layouts of a double

A layout says for which exponents of the leading digit the digits are written around a decimal
point, whether a whole number shows `.0` and an exponent its plus sign, and which of two equally
near decimals is written. Outside that range the exponent is written out.
-/

namespace ConsoleLog.Decimal

structure Layout where
  positional : Int → Bool
  showsPoint : Bool
  /-- Whether an exponent that is not negative shows a plus sign. -/
  showsPlus : Bool
  tie : Tie

namespace Layout

/-- Digits around the point; `exponent` is the weight of the last digit. -/
def point (l : Layout) (digits : List Char) (exponent : Int) : List Char :=
  if exponent ≥ 0 then
    digits ++ List.replicate exponent.toNat '0' ++ (if l.showsPoint then ['.', '0'] else [])
  else
    let places := (-exponent).toNat
    let padded := Text.padStart '0' (places + 1) digits
    padded.take (padded.length - places) ++ '.' :: padded.drop (padded.length - places)

def withExponent (l : Layout) (digits : List Char) (leading : Int) : List Char :=
  let mantissa := match digits with
    | [] => []
    | [d] => [d]
    | d :: ds => d :: '.' :: ds
  let plus := if l.showsPlus && 0 ≤ leading then ['+'] else []
  mantissa ++ 'e' :: (plus ++ Text.signed leading)

def magnitude (l : Layout) (bits : UInt64) : List Char :=
  let x := Magnitude.ofBits bits
  if x.mantissa = 0 then l.point ['0'] 0
  else
    let d := x.shortest l.tie
    let digits := Text.decimal d.digits
    let leading := d.exponent + digits.length - 1
    if l.positional leading then l.point digits d.exponent else l.withExponent digits leading

def render (l : Layout) (x : Float) : List Char :=
  let bits := x.toBits
  if x.isNaN then ['N', 'a', 'N']
  else
    let size := if x.isInf then ['i', 'n', 'f'] else l.magnitude bits
    if bits >>> 63 = 1 then '-' :: size else size

end Layout

end ConsoleLog.Decimal
