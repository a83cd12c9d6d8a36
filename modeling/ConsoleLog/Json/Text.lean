/-!
# JSON strings

The text between two quotes is read into code units: a character stands for itself and an escape for
one unit. A unit may be half of a surrogate pair, and only units whose halves are all paired make
characters.
-/

namespace ConsoleLog.Json

def hexDigit? (c : Char) : Option Nat :=
  if c.isDigit then some (c.toNat - '0'.toNat)
  else if 'a' ≤ c ∧ c ≤ 'f' then some (c.toNat - 'a'.toNat + 10)
  else if 'A' ≤ c ∧ c ≤ 'F' then some (c.toNat - 'A'.toNat + 10)
  else none

def hex? (cs : List Char) : Option Nat :=
  cs.foldlM (fun n c => (hexDigit? c).map (16 * n + ·)) 0

def escape? : Char → Option Nat
  | '\x22' => some 0x22
  | '\\' => some 0x5C
  | '/' => some 0x2F
  | 'b' => some 0x08
  | 'f' => some 0x0C
  | 'n' => some 0x0A
  | 'r' => some 0x0D
  | 't' => some 0x09
  | _ => none

/-- The units of a string from after its opening quote, and what follows its closing one. Control
characters have to be escaped. -/
def units? : List Char → Option (List Nat × List Char)
  | [] => none
  | '\x22' :: cs => some ([], cs)
  | '\\' :: 'u' :: a :: b :: c :: d :: cs =>
    match hex? [a, b, c, d], units? cs with
    | some u, some (us, rest) => some (u :: us, rest)
    | _, _ => none
  | '\\' :: c :: cs =>
    match escape? c, units? cs with
    | some u, some (us, rest) => some (u :: us, rest)
    | _, _ => none
  | c :: cs =>
    if c.toNat < 0x20 then none
    else (units? cs).map fun r => (c.toNat :: r.1, r.2)

/-! ## Surrogates -/

def isLead (u : Nat) : Bool := 0xD800 ≤ u && u < 0xDC00

def isTrail (u : Nat) : Bool := 0xDC00 ≤ u && u < 0xE000

def pair (lead trail : Nat) : Char :=
  Char.ofNat (0x10000 + 0x400 * (lead - 0xD800) + (trail - 0xDC00))

def ofUnits? : List Nat → Option (List Char)
  | [] => some []
  | [u] => if isLead u || isTrail u then none else some [Char.ofNat u]
  | u :: v :: us =>
    if isLead u then
      if isTrail v then (ofUnits? us).map (pair u v :: ·) else none
    else if isTrail u then none
    else (ofUnits? (v :: us)).map (Char.ofNat u :: ·)

def text? (cs : List Char) : Option (String × List Char) :=
  match units? cs with
  | some (us, rest) => (ofUnits? us).map fun text => (String.ofList text, rest)
  | none => none

end ConsoleLog.Json
