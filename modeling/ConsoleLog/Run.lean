import ConsoleLog.Event
import ConsoleLog.Sink

/-!
# Runs

A run is one stretch of work on a sink: how it ended, the sink that it left and the events that it
raised. `andThen` puts one run after another; what is not done leaves the second out.
-/

namespace ConsoleLog

structure Run (σ ε : Type) where
  outcome : Outcome ε
  sink : σ
  events : List Event

namespace Run

variable {σ ε δ : Type}

def idle (s : σ) : Run σ ε := ⟨.done, s, []⟩

def raise (s : σ) (events : List Event) : Run σ ε := ⟨.done, s, events⟩

/-- Calls of a sink, whose failures are errors of the run. -/
def ofCalls (error : String → ε) (r : Outcome String × σ) : Run σ ε := ⟨r.1.map error, r.2, []⟩

def andThen (r : Run σ ε) (next : σ → Run σ ε) : Run σ ε :=
  match r.outcome with
  | .done =>
    let r' := next r.sink
    { r' with events := r.events ++ r'.events }
  | _ => r

def mapError (f : ε → δ) (r : Run σ ε) : Run σ δ := ⟨r.outcome.map f, r.sink, r.events⟩

end Run

end ConsoleLog
