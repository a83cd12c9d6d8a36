import ConsoleLog.Decimal.Layout
import ConsoleLog.Text.Quoted

/-!
# Values of a record

The body and the attributes of a record are values. A value on its own reads as plain text; inside a
list or a map its kind is written with it, and with a text the way it is stored.
-/

namespace ConsoleLog

/-- Where the characters of a text are: in a string of its own, in the program or behind a shared
pointer. -/
inductive Storage where
  | owned
  | static
  | counted

def Storage.name : Storage → String
  | .owned => "Owned"
  | .static => "Static"
  | .counted => "RefCounted"

structure StoredText where
  storage : Storage
  content : String

def StoredText.describe (t : StoredText) : String :=
  t.storage.name ++ "(" ++ Text.quote t.content ++ ")"

/-- The entries of a map stand in the order in which the map gives them: a hash map has an order of its
own, so maps with the same entries need not be the same value. -/
inductive Value where
  | string (t : StoredText)
  | int (i : Int64)
  | double (x : Float)
  | bool (b : Bool)
  | bytes (bs : List UInt8)
  | list (vs : List Value)
  | entries (es : List (StoredText × Value))

namespace Value

def text (s : String) : Value := .string ⟨.owned, s⟩

def map (es : List (String × Value)) : Value := .entries (es.map fun e => (⟨.owned, e.1⟩, e.2))

/-- A number on its own: digits around the point at every size, and no point in a whole number. -/
def plainLayout : Decimal.Layout := ⟨fun _ => true, false, false, .larger⟩

/-- A number inside a value: an exponent below a ten-thousandth and from 10 ^ 16 on. -/
def nestedLayout : Decimal.Layout := ⟨fun e => -4 ≤ e && e < 16, true, false, .larger⟩

def intText (i : Int64) : String := String.ofList (Text.signed i.toInt)

theorem mem_intText {i : Int64} {c : Char} (h : c ∈ (intText i).toList) :
    c = '-' ∨ c.isDigit = true := by
  rw [intText, String.toList_ofList] at h
  exact Text.mem_signed h

def boolText (b : Bool) : String := if b then "true" else "false"

def separated (parts : List String) : String := ", ".intercalate parts

def byteText (b : UInt8) : String := String.ofList (Text.decimal b.toNat)

mutual
def describe : Value → String
  | .string t => "String(" ++ t.describe ++ ")"
  | .int i => "Int(" ++ intText i ++ ")"
  | .double x => "Double(" ++ String.ofList (nestedLayout.render x) ++ ")"
  | .bool b => "Boolean(" ++ boolText b ++ ")"
  | .bytes bs => "Bytes([" ++ separated (bs.map byteText) ++ "])"
  | .list vs => "ListAny([" ++ separated (describeAll vs) ++ "])"
  | .entries es => "Map(\x7b" ++ separated (describeEntries es) ++ "\x7d)"

def describeAll : List Value → List String
  | [] => []
  | v :: vs => describe v :: describeAll vs

def describeEntries : List (StoredText × Value) → List String
  | [] => []
  | (k, v) :: es => (k.describe ++ ": " ++ describe v) :: describeEntries es
end

def asText : Value → String
  | .string t => t.content
  | .int i => intText i
  | .double x => String.ofList (plainLayout.render x)
  | .bool b => boolText b
  | v => describe v

end Value

end ConsoleLog
