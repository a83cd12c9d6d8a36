/-!
# Shortest decimals of a double

A finite double stands for all reals that round to it, the ends of that interval included when its
mantissa is even. `Magnitude.shortest` is the decimal with the fewest digits in the interval, of two
such decimals the nearer one; which of two equally near ones is taken is for the caller to say.
-/

namespace ConsoleLog.Decimal

structure Scaled where
  digits : Nat
  exponent : Int
  deriving DecidableEq, Repr

/-- The number `mantissa * 2 ^ exponent`. Below a power of two the next double is only half as far
away as above it, which `narrowBelow` tells. -/
structure Magnitude where
  mantissa : Nat
  exponent : Int
  narrowBelow : Bool
  deriving DecidableEq, Repr

/-- What half a step is rounded to: the larger neighbour, or the one with an even last digit. -/
inductive Tie where
  | larger | even
  deriving DecidableEq, Repr

structure Ratio where
  num : Nat
  den : Nat

namespace Ratio

def ofScaled (a : Nat) (i g : Int) : Ratio :=
  ⟨a * Nat.pow 2 i.toNat * Nat.pow 10 (-g).toNat, Nat.pow 2 (-i).toNat * Nat.pow 10 g.toNat⟩

def compareTo (r : Ratio) (n : Nat) : Ordering := compare r.num (n * r.den)

def rounded (r : Ratio) (tie : Tie) : Nat :=
  let below := r.num / r.den
  match compare (2 * (r.num % r.den)) r.den with
  | .lt => below
  | .gt => below + 1
  | .eq => if tie = .even ∧ below % 2 = 0 then below else below + 1

end Ratio

namespace Magnitude

def ofBits (bits : UInt64) : Magnitude :=
  let e := ((bits >>> 52) &&& 0x7FF).toNat
  let f := (bits &&& 0xFFFFFFFFFFFFF).toNat
  if e = 0 then ⟨f, -1074, false⟩ else ⟨0x10000000000000 + f, (e : Int) - 1075, f == 0 && e != 1⟩

/-- Four times the mantissa, so that the ends of the interval are whole as well. -/
def quarters (x : Magnitude) (g : Int) : Ratio := .ofScaled (4 * x.mantissa) (x.exponent - 2) g

def lowerEnd (x : Magnitude) (g : Int) : Ratio :=
  .ofScaled (4 * x.mantissa - (if x.narrowBelow then 1 else 2)) (x.exponent - 2) g

def upperEnd (x : Magnitude) (g : Int) : Ratio := .ofScaled (4 * x.mantissa + 2) (x.exponent - 2) g

def readsBack (x : Magnitude) (g : Int) (n : Nat) : Bool :=
  let lower := (x.lowerEnd g).compareTo n
  let upper := (x.upperEnd g).compareTo n
  let even := x.mantissa % 2 == 0
  (lower == .lt || even && lower == .eq) && (upper == .gt || even && upper == .eq)

/-- The multiple of `10 ^ g` that reads back, if one of the two next to the value does. -/
def onGrid? (x : Magnitude) (tie : Tie) (g : Int) : Option Scaled :=
  let r := x.quarters g
  let below := r.num / r.den
  match x.readsBack g below, x.readsBack g (below + 1) with
  | true, true => some ⟨r.rounded tie, g⟩
  | true, false => some ⟨below, g⟩
  | false, true => some ⟨below + 1, g⟩
  | false, false => none

/-- The least `k` with the value below `10 ^ k`, for a value other than zero. -/
def width (x : Magnitude) : Int :=
  let r := x.quarters 0
  let k := ((Nat.toDigits 10 r.num).length : Int) - (Nat.toDigits 10 r.den).length
  if (x.quarters k).compareTo 1 == .lt then k else k + 1

/-- Zeros at the end move from the digits into the exponent. -/
def dropZeros : Nat → Scaled → Scaled
  | 0, d => d
  | fuel + 1, d =>
    if d.digits ≠ 0 ∧ d.digits % 10 = 0 then dropZeros fuel ⟨d.digits / 10, d.exponent + 1⟩ else d

/-- The value itself, which every double has as a decimal. -/
def exact (x : Magnitude) : Scaled :=
  ⟨x.mantissa * Nat.pow 2 x.exponent.toNat * Nat.pow 5 (-x.exponent).toNat, min x.exponent 0⟩

/-- Seventeen digits are enough for every double. -/
def shortest (x : Magnitude) (tie : Tie) : Scaled :=
  let k := x.width
  let d := ((List.range 17).findSome? fun (n : Nat) => x.onGrid? tie (k - 1 - n)).getD x.exact
  dropZeros (Nat.toDigits 10 d.digits).length d

end Magnitude

end ConsoleLog.Decimal
