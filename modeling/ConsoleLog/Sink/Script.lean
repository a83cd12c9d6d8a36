import ConsoleLog.Sink

/-!
# Scripted sinks

A sink that keeps a journal of its calls and fails when its script says so: at calls with given
numbers, counted from the first call of its life, and at writes of a given text.
-/

namespace ConsoleLog

inductive Fault where
  | failure (message : String)
  | abort (message : String)
  deriving DecidableEq

structure JournalEntry where
  call : Call
  accepted : Bool
  deriving DecidableEq

structure Script where
  colors : ColorPair
  faults : List (Nat × Fault)
  poison : Option String
  journal : List JournalEntry

namespace Text

def occursIn (p : List Char) : List Char → Bool
  | [] => p.isEmpty
  | c :: cs => p.isPrefixOf (c :: cs) || occursIn p cs

end Text

namespace Fault

def outcome : Fault → Outcome String
  | .failure m => .failed m
  | .abort m => .aborted m

end Fault

namespace Script

def new (colors : ColorPair) (faults : List (Nat × Fault)) (poison : Option String) : Script :=
  ⟨colors, faults, poison, []⟩

def nextCall (s : Script) : Nat := s.journal.length

def isPoisoned (s : Script) (c : Call) : Bool :=
  match s.poison, c.written? with
  | some p, some text => Text.occursIn p.toList text.toList
  | _, _ => false

/-- What the script has against a call with number `n`. A numbered fault comes before the
poison. -/
def faultAt? (s : Script) (n : Nat) (c : Call) : Option Fault :=
  match s.faults.lookup n with
  | some f => some f
  | none => if s.isPoisoned c then some (.failure "device rejected write") else none

def fault? (s : Script) (c : Call) : Option Fault := s.faultAt? s.nextCall c

def record (s : Script) (c : Call) (accepted : Bool) : Script :=
  { s with journal := s.journal ++ [⟨c, accepted⟩] }

/-- A call that fails changes no color. -/
def perform (s : Script) (c : Call) : Outcome String × Script :=
  match s.fault? c with
  | some f => (f.outcome, s.record c false)
  | none => (.done, { s.record c true with colors := c.recolor s.colors })

instance : Sink Script where
  colors s := s.colors
  perform := perform

end Script

end ConsoleLog
