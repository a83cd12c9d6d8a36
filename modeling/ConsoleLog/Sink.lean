import ConsoleLog.Color

/-!
# Sinks

A sink is the device that records are drawn on. It takes four kinds of calls, each of which may fail
or abort the operation around it, and it can always tell its current colors.
-/

namespace ConsoleLog

/-- How a call or an operation ended. An abort passes through all that is under way. -/
inductive Outcome (ε : Type) where
  | done
  | failed (e : ε)
  | aborted (message : String)
  deriving DecidableEq

/-- A change that a sink is asked for. -/
inductive Call where
  | text (s : String)
  | line (s : String)
  | foreground (c : Color)
  | background (c : Color)
  deriving DecidableEq

class Sink (σ : Type) where
  colors : σ → ColorPair
  perform : σ → Call → Outcome String × σ

namespace Outcome

variable {ε δ : Type}

def map (f : ε → δ) : Outcome ε → Outcome δ
  | .done => .done
  | .failed e => .failed (f e)
  | .aborted m => .aborted m

def isAborted : Outcome ε → Bool
  | .aborted _ => true
  | _ => false

@[simp] theorem isAborted_map (f : ε → δ) (o : Outcome ε) : (o.map f).isAborted = o.isAborted := by
  cases o <;> rfl

def first : Outcome ε → Outcome ε → Outcome ε
  | .done, o => o
  | o, _ => o

end Outcome

namespace Call

def recolor : Call → ColorPair → ColorPair
  | .foreground c, p => { p with foreground := c }
  | .background c, p => { p with background := c }
  | _, p => p

/-- What a writing call writes, a line without its end. -/
def written? : Call → Option String
  | .text s => some s
  | .line s => some s
  | _ => none

end Call

namespace Sink

variable {σ : Type} [Sink σ]

/-- Calls in order, up to and with the first that is not done. -/
def performAll (s : σ) : List Call → Outcome String × σ
  | [] => (.done, s)
  | c :: cs =>
    match perform s c with
    | (.done, s') => performAll s' cs
    | r => r

end Sink

end ConsoleLog
