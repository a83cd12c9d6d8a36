/-!
# White space at the ends of a text

`isBlank` is the Unicode property White_Space, twenty-five characters in ten ranges. Names and
settings are compared after `fold`: blanks at both ends removed and ASCII letters in lower case.
-/

namespace ConsoleLog.Text

def blankRanges : List (Nat × Nat) :=
  [(0x09, 0x0D), (0x20, 0x20), (0x85, 0x85), (0xA0, 0xA0), (0x1680, 0x1680), (0x2000, 0x200A),
   (0x2028, 0x2029), (0x202F, 0x202F), (0x205F, 0x205F), (0x3000, 0x3000)]

def isBlank (c : Char) : Bool :=
  blankRanges.any fun r => r.1 ≤ c.toNat && c.toNat ≤ r.2

def trimStart (cs : List Char) : List Char := cs.dropWhile isBlank

def trimEnd (cs : List Char) : List Char := (trimStart cs.reverse).reverse

def trim (cs : List Char) : List Char := trimEnd (trimStart cs)

/-- Letters outside ASCII keep their case. -/
def lower (cs : List Char) : List Char := cs.map Char.toLower

def fold (text : String) : String := String.ofList (lower (trim text.toList))

end ConsoleLog.Text
