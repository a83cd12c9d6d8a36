import ConsoleLog.Json.Reader

/-!
# Skipping a value

A value that nobody asked for is taken off a text by its form alone: its numbers may be too large
and its strings may hold half a surrogate pair. The brackets that are open are kept in a list.
-/

namespace ConsoleLog.Json

inductive Bracket where
  | array | object
  deriving DecidableEq, Repr

/-- A value without brackets. Only its form is checked. -/
def skipScalar? (cs : List Char) : Option (List Char) :=
  match cs with
  | 'n' :: cs => word? ['u', 'l', 'l'] cs
  | 't' :: cs => word? ['r', 'u', 'e'] cs
  | 'f' :: cs => word? ['a', 'l', 's', 'e'] cs
  | '\x22' :: cs => (units? cs).map (·.2)
  | cs => (numeral? cs).map (·.2)

def skipKey? (cs : List Char) : Option (List Char) :=
  match skipSpace cs with
  | '\x22' :: cs =>
    match (units? cs).map fun r => skipSpace r.2 with
    | some (':' :: cs) => some cs
    | _ => none
  | _ => none

/-- After a value: closes the brackets that end here and goes on to the next value. No bracket is
left open when there is none. -/
def afterValue? : List Bracket → List Char → Option (List Bracket × List Char)
  | [], cs => some ([], cs)
  | .array :: bs, cs =>
    match skipSpace cs with
    | ']' :: cs => afterValue? bs cs
    | ',' :: cs => some (.array :: bs, cs)
    | _ => none
  | .object :: bs, cs =>
    match skipSpace cs with
    | '\x7d' :: cs => afterValue? bs cs
    | ',' :: cs => (skipKey? cs).map fun cs => (.object :: bs, cs)
    | _ => none

/-- One bracket or one scalar of a value inside open brackets. -/
def skipStep? (bs : List Bracket) (cs : List Char) : Option (List Bracket × List Char) :=
  match skipSpace cs with
  | '[' :: cs =>
    match skipSpace cs with
    | ']' :: cs => afterValue? bs cs
    | cs => some (.array :: bs, cs)
  | '\x7b' :: cs =>
    match skipSpace cs with
    | '\x7d' :: cs => afterValue? bs cs
    | cs => (skipKey? cs).map fun cs => (.object :: bs, cs)
  | cs => (skipScalar? cs).bind (afterValue? bs)

def skipFrom? : Nat → List Bracket → List Char → Option (List Char)
  | 0, _, _ => none
  | fuel + 1, bs, cs =>
    match skipStep? bs cs with
    | none => none
    | some ([], cs) => some cs
    | some (b :: bs, cs) => skipFrom? fuel (b :: bs) cs

/-- Any value. A step takes a character at least. -/
def skip : Reader Unit := fun cs =>
  ofOption ((skipFrom? (cs.length + 1) [] cs).map fun rest => ((), rest))

end ConsoleLog.Json
