import ConsoleLog.Json.Error
import ConsoleLog.Json.Text

/-!
# Reading JSON by expectation

A reader knows what it expects and takes that off the front of a text, fields and items in the order
in which they are written. The first thing that is wrong ends the reading: either the text is not
JSON there, or it holds something else than was expected.
-/

namespace ConsoleLog.Json

/-- Takes a value off the front of a text. -/
abbrev Reader (α : Type) := List Char → Except ReadError (α × List Char)

variable {α : Type}

/-! ## Lexemes -/

def isSpace (c : Char) : Bool := c == ' ' || c == '\n' || c == '\t' || c == '\r'

def skipSpace (cs : List Char) : List Char := cs.dropWhile isSpace

/-- A word is read to its last letter, whatever follows. -/
def word? (letters : List Char) (cs : List Char) : Option (List Char) :=
  if letters.isPrefixOf cs then some (cs.drop letters.length) else none

def found? (cs : List Char) : Option Found :=
  match skipSpace cs with
  | 'n' :: cs => (word? ['u', 'l', 'l'] cs).map fun _ => .null
  | 't' :: cs => (word? ['r', 'u', 'e'] cs).map fun _ => .bool true
  | 'f' :: cs => (word? ['a', 'l', 's', 'e'] cs).map fun _ => .bool false
  | '\x22' :: cs => (text? cs).map fun r => .text r.1
  | '[' :: _ => some .sequence
  | '\x7b' :: _ => some .map
  | cs => (numeral? cs).bind fun r => r.1.number?.map .number

def mismatch (expected : String) (cs : List Char) : ReadError :=
  match found? cs with
  | some f => .unexpected f expected
  | none => .malformed

def ofOption (r : Option α) : Except ReadError α :=
  match r with
  | some a => .ok a
  | none => .error .malformed

def expectChar (c : Char) (cs : List Char) : Except ReadError (List Char) :=
  match skipSpace cs with
  | d :: cs => if d = c then .ok cs else .error .malformed
  | [] => .error .malformed

def string (expected : String) : Reader String := fun cs =>
  match skipSpace cs with
  | '\x22' :: cs => ofOption (text? cs)
  | cs => .error (mismatch expected cs)

/-- A value that the rest of a word stands for. -/
def word (letters : List Char) (a : α) : Reader α := fun cs =>
  ofOption ((word? letters cs).map fun rest => (a, rest))

def boolean : Reader Bool := fun cs =>
  match skipSpace cs with
  | 't' :: cs => word ['r', 'u', 'e'] true cs
  | 'f' :: cs => word ['a', 'l', 's', 'e'] false cs
  | cs => .error (mismatch "a boolean" cs)

def null (expected : String) : Reader Unit := fun cs =>
  match skipSpace cs with
  | 'n' :: cs => word ['u', 'l', 'l'] () cs
  | cs => .error (mismatch expected cs)

def optional (read : Reader α) : Reader (Option α) := fun cs =>
  match skipSpace cs with
  | 'n' :: cs => word ['u', 'l', 'l'] none cs
  | cs => (read cs).map fun r => (some r.1, r.2)

/-! ## Arrays -/

/-- Whether another item follows, and the text from there. -/
def nextItem (first : Bool) : Reader Bool := fun cs =>
  match skipSpace cs with
  | [] => .error .malformed
  | ']' :: cs => .ok (false, ']' :: cs)
  | c :: cs =>
    if first then .ok (true, c :: cs)
    else if c = ',' then
      match skipSpace cs with
      | [] => .error .malformed
      | ']' :: _ => .error .malformed
      | cs => .ok (true, cs)
    else .error .malformed

def item? (first : Bool) (read : Reader α) : Reader (Option α) := fun cs =>
  match nextItem first cs with
  | .ok (true, cs) => (read cs).map fun r => (some r.1, r.2)
  | .ok (false, cs) => .ok (none, cs)
  | .error e => .error e

/-! ## Objects -/

def key : Reader (Option String) := fun cs => ofOption ((text? cs).map fun r => (some r.1, r.2))

/-- The key of the next field, if there is one, and the text from its colon. -/
def nextKey? (first : Bool) : Reader (Option String) := fun cs =>
  match skipSpace cs with
  | '\x7d' :: cs => .ok (none, cs)
  | '\x22' :: cs => if first then key cs else .error .malformed
  | ',' :: cs =>
    if first then .error .malformed
    else
      match skipSpace cs with
      | '\x22' :: cs => key cs
      | _ => .error .malformed
  | _ => .error .malformed

/-- The fields of an object up to its brace, `field` reading one from its colon on. Every field
takes a character at least, so the length of the text bounds their number. -/
def fieldsFrom (field : α → String → Reader α) : Nat → Bool → α → Reader α
  | 0, _, _, _ => .error .malformed
  | fuel + 1, first, a, cs =>
    match nextKey? first cs with
    | .error e => .error e
    | .ok (none, cs) => .ok (a, cs)
    | .ok (some key, cs) =>
      match field a key cs with
      | .error e => .error e
      | .ok (b, cs) => fieldsFrom field fuel false b cs

def fields (field : α → String → Reader α) (a : α) : Reader α := fun cs =>
  fieldsFrom field (cs.length + 1) true a cs

def fieldValue (read : Reader α) : Reader α := fun cs =>
  match expectChar ':' cs with
  | .ok cs => read cs
  | .error e => .error e

/-- The value of a field that no earlier field has the name of. -/
def fieldOnce (name : String) (earlier : Option α) (read : Reader α) :
    Reader (Option α) := fun cs =>
  match earlier with
  | some _ => .error (.duplicateField name)
  | none => (fieldValue read cs).map fun r => (some r.1, r.2)

/-! ## Whole texts -/

def whole (read : Reader α) (text : String) : Except ReadError α :=
  match read text.toList with
  | .error e => .error e
  | .ok (a, cs) => if (skipSpace cs).isEmpty then .ok a else .error .malformed

end ConsoleLog.Json
