/-!
# Decimal numerals

Writing and reading of whole numbers, and padding to a width. A sign stands before the digits; `+`
is read and never written by `signed`.
-/

namespace ConsoleLog.Text

def decimal (n : Nat) : List Char := Nat.toDigits 10 n

def signed (z : Int) : List Char :=
  if z < 0 then '-' :: decimal z.natAbs else decimal z.natAbs

/-- Digits alone, at least one of them. -/
def natural? (cs : List Char) : Option Nat :=
  if !cs.isEmpty && cs.all Char.isDigit then some (Nat.ofDigitChars 10 cs 0) else none

def integer? : List Char → Option Int
  | '-' :: cs => (natural? cs).map fun n => -(n : Int)
  | '+' :: cs => (natural? cs).map fun n => (n : Int)
  | cs => (natural? cs).map fun n => (n : Int)

theorem isDigit_of_mem_decimal {n : Nat} {c : Char} (h : c ∈ decimal n) : c.isDigit = true :=
  Nat.isDigit_of_mem_toDigits (by decide) (by decide) h

theorem natural?_decimal (n : Nat) : natural? (decimal n) = some n := by
  have hne : (decimal n).isEmpty = false := by simp [decimal]
  have hdigits : (decimal n).all Char.isDigit = true :=
    List.all_eq_true.mpr fun c hc => isDigit_of_mem_decimal hc
  rw [natural?, hne, hdigits, decimal, Nat.ofDigitChars_ten_toDigits]
  rfl

theorem integer?_of_isDigit {c : Char} (h : c.isDigit = true) (cs : List Char) :
    integer? (c :: cs) = (natural? (c :: cs)).map Int.ofNat := by
  unfold integer?
  split
  · rename_i hc
    rw [(List.cons.inj hc).1] at h
    cases h
  · rename_i hc
    rw [(List.cons.inj hc).1] at h
    cases h
  · cases natural? (c :: cs) <;> rfl

theorem integer?_signed (z : Int) : integer? (signed z) = some z := by
  have hread := natural?_decimal z.natAbs
  unfold signed
  by_cases hz : z < 0
  · have habs : -(z.natAbs : Int) = z := by omega
    rw [if_pos hz, integer?, hread]
    exact congrArg some habs
  · have habs : (z.natAbs : Int) = z := by omega
    rw [if_neg hz]
    cases h : decimal z.natAbs with
    | nil => exact absurd h Nat.toDigits_ne_nil
    | cons c cs =>
      have hc : c.isDigit = true := isDigit_of_mem_decimal (by rw [h]; simp)
      rw [h] at hread
      rw [integer?_of_isDigit hc, hread]
      exact congrArg some habs

theorem mem_signed {z : Int} {c : Char} (h : c ∈ signed z) : c = '-' ∨ c.isDigit = true := by
  unfold signed at h
  by_cases hz : z < 0
  · rw [if_pos hz] at h
    exact (List.mem_cons.mp h).imp id isDigit_of_mem_decimal
  · rw [if_neg hz] at h
    exact Or.inr (isDigit_of_mem_decimal h)

def padStart (fill : Char) (width : Nat) (cs : List Char) : List Char :=
  List.replicate (width - cs.length) fill ++ cs

end ConsoleLog.Text
