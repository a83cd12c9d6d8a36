import ConsoleLog.Lock
import ConsoleLog.Render

/-!
# Exporters

An exporter owns a sink, behind a lock that is held for one record at a time, and renders batches of
records on it, each batch in order up to the first record that fails. After a shutdown it refuses the
pipeline's batches.
-/

namespace ConsoleLog

structure ExportError where
  index : Nat
  source : RenderError
  deriving DecidableEq, Repr

/-- What the pipeline is told of an export that did not succeed. -/
inductive ExportFailure where
  | alreadyShutdown
  | internal (error : String)
  deriving DecidableEq, Repr

structure Exporter (σ : Type) where
  settings : Settings
  lock : Lock σ
  isShutdown : Bool

namespace ExportError

def message (e : ExportError) : String :=
  "failed to render log record #" ++ String.ofList (Text.decimal e.index) ++ ": " ++
    e.source.message

end ExportError

namespace ExportFailure

def message : ExportFailure → String
  | .alreadyShutdown => "Shutdown already invoked"
  | .internal e => "Operation failed: " ++ e

end ExportFailure

/-! ## Batches -/

section
variable {σ : Type} [Sink σ] (c : Settings) (clock : Nat → Time.Clock)

/-- Renders a batch whose first record has place `i`. The lock is taken and the clock is read anew for
each place. -/
def renderFrom (i : Nat) (l : Lock σ) : List RecordView → Run (Lock σ) ExportError
  | [] => .idle l
  | r :: rs =>
    (l.hold fun s => (Render.render c (clock i) r s).mapError (⟨i, ·⟩)).andThen fun l =>
      renderFrom (i + 1) l rs

def renderBatch (l : Lock σ) (rs : List RecordView) : Run (Lock σ) ExportError :=
  renderFrom c clock 0 l rs

/-- A failed batch raises one more event, which an abort leaves out. -/
def exportRun (l : Lock σ) (rs : List LogRecord) : Run (Lock σ) ExportFailure :=
  let r := renderBatch c clock l (rs.map LogRecord.view)
  let note := match r.outcome with
    | .failed e => [Event.exportFailed e.message]
    | _ => []
  ⟨r.outcome.map fun e => .internal e.message, r.sink, r.events ++ note⟩

end

/-! ## Operations -/

inductive Operation where
  | export (records : List LogRecord)
  | exportBatch (records : List RecordView)
  | shutdown
  | describe

inductive Reply where
  | exported (o : Outcome ExportFailure)
  | batch (o : Outcome ExportError)
  | shutdown
  | description (text : String)
  deriving DecidableEq

/-- An operation's answer, the exporter after it and the events that it raised. -/
structure Step (σ : Type) where
  reply : Reply
  exporter : Exporter σ
  events : List Event

namespace Exporter

variable {σ : Type}

/-- The sink that the exporter gives back in the end, after an abort too. -/
def sink (e : Exporter σ) : σ := Poisoned.recover e.lock.intoInner

theorem sink_eq (e : Exporter σ) : e.sink = e.lock.value := e.lock.recover_intoInner

@[simp] theorem sink_mk (c : Settings) (l : Lock σ) (isShutdown : Bool) :
    (⟨c, l, isShutdown⟩ : Exporter σ).sink = l.value := sink_eq _

def describe (e : Exporter σ) : String :=
  "SimpleConsoleExporter \x7b config: " ++ e.settings.describe ++ ", is_shutdown: " ++
    Value.boolText e.isShutdown ++ " \x7d"

variable [Sink σ]

/-- One operation. Views are rendered after a shutdown too. -/
def step (clock : Nat → Time.Clock) (e : Exporter σ) : Operation → Step σ
  | .export rs =>
    if e.isShutdown then ⟨.exported (.failed .alreadyShutdown), e, []⟩
    else
      let r := exportRun e.settings clock e.lock rs
      ⟨.exported r.outcome, { e with lock := r.sink }, r.events⟩
  | .exportBatch rs =>
    let r := renderBatch e.settings clock e.lock rs
    ⟨.batch r.outcome, { e with lock := r.sink }, r.events⟩
  | .shutdown => ⟨.shutdown, { e with isShutdown := true }, []⟩
  | .describe => ⟨.description e.describe, e, []⟩

/-- The steps of a list of operations, each on the exporter that the one before left. The clock
says `clock n i` at record `i` of operation `n`. -/
def session (clock : Nat → Nat → Time.Clock) (e : Exporter σ) : List Operation → List (Step σ)
  | [] => []
  | op :: ops =>
    let s := e.step (clock 0) op
    s :: session (fun n => clock (n + 1)) s.exporter ops

def steps (clock : Time.Clock) (e : Exporter σ) (ops : List Operation) : List (Step σ) :=
  e.session (fun _ _ => clock) ops

end Exporter

end ConsoleLog
