import ConsoleLog.Decimal.Layout
import ConsoleLog.Json.Number
import ConsoleLog.Text.Quoted

/-!
# Errors of a reader

A text that is not JSON is malformed, wherever that shows. Any other error says what stands in the
text and what should have stood there.
-/

namespace ConsoleLog.Json

/-- What stands at a place where something else was expected. -/
inductive Found where
  | null
  | bool (b : Bool)
  | number (n : Number)
  | text (s : String)
  | sequence
  | map

inductive ReadError where
  | malformed
  | unexpected (found : Found) (expected : String)
  | unknownName (name : String) (known : List String)
  | duplicateField (name : String)
  | missingField (name : String)
  | tooShort (length : Nat) (expected : String)

/-- An exponent is written from 10 ^ 16 on and below 10 ^ -5. -/
def numberLayout : Decimal.Layout := ⟨fun e => -5 ≤ e && e < 16, true, true, .even⟩

def ticked (s : String) : String := "\x60" ++ s ++ "\x60"

namespace Found

def describe : Found → String
  | .null => "null"
  | .bool b => "boolean " ++ ticked (if b then "true" else "false")
  | .number (.integer z) => "integer " ++ ticked (String.ofList (Text.signed z))
  | .number (.double x) => "floating point " ++ ticked (String.ofList (numberLayout.render x))
  | .text s => "string " ++ Text.quote s
  | .sequence => "sequence"
  | .map => "map"

end Found

namespace ReadError

/-- Text that is not JSON has no message of its own. -/
def message? : ReadError → Option String
  | .malformed => none
  | .unexpected f e => some ("invalid type: " ++ f.describe ++ ", expected " ++ e)
  | .unknownName n ks =>
    some ("unknown variant " ++ ticked n ++ ", expected one of " ++
      ", ".intercalate (ks.map ticked))
  | .duplicateField n => some ("duplicate field " ++ ticked n)
  | .missingField n => some ("missing field " ++ ticked n)
  | .tooShort n e =>
    some ("invalid length " ++ String.ofList (Text.decimal n) ++ ", expected " ++ e)

end ReadError

end ConsoleLog.Json
