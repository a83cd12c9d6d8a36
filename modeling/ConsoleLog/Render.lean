import ConsoleLog.Policy
import ConsoleLog.Record
import ConsoleLog.Run
import ConsoleLog.Time.Moment

/-!
# Rendering of a record

A record becomes a header line, a message line and a line for each line of its exception, all but
the header indented. The header starts with the timestamp, if one is set, and the severity tag,
which alone is drawn in the colors of its severity.
-/

namespace ConsoleLog

structure Settings where
  format : Option Time.Format
  utc : Bool
  policy : ColorPolicy

inductive RenderError where
  | sink (message : String)
  | timestamp (format : String)
  deriving DecidableEq, Repr

namespace RenderError

def message : RenderError → String
  | .sink m => "console sink write failed: " ++ m
  | .timestamp f => "timestamp could not be formatted with " ++ Text.quote f

end RenderError

namespace Settings

def ofFormat (format : Option String) (utc : Bool) (policy : ColorPolicy) :
    Except ConfigError Settings :=
  match nonempty? format with
  | none => .ok ⟨none, utc, policy⟩
  | some text =>
    match Time.Format.ofText? text with
    | some f => .ok ⟨some f, utc, policy⟩
    | none => .error (.badTimestampFormat text)

def formatText (c : Settings) : Option String := c.format.map (·.text)

def zone (c : Settings) (clock : Time.Clock) : Time.Zone :=
  if c.utc then .utc else .east clock.localOffset

def describe (c : Settings) : String :=
  "RenderConfig \x7b timestamp_format: " ++ Event.optionText c.formatText ++
    ", use_utc_timestamp: " ++ Value.boolText c.utc ++ ", color_policy: " ++ c.policy.describe ++
    " \x7d"

end Settings

/-! ## The lines -/

namespace RecordView

def padding : String := "      "

def headerRest (r : RecordView) : String :=
  ": " ++ r.category ++ "[" ++ Value.intText r.eventId ++ "]"

def lines (r : RecordView) : List String :=
  r.headerRest :: (padding ++ r.message) :: r.exceptionLines.map (padding ++ ·)

def shownSeverity (r : RecordView) : Severity := r.severity.severity

end RecordView

/-! ## The drawing -/

namespace Render

variable {σ : Type} [Sink σ]

/-- The moment of a record, which is the present one if the calendar does not cover it. -/
def moment (zone : Time.Zone) (clock : Time.Clock) (i : Time.Instant) : Time.Moment × List Event :=
  match i.calendar? with
  | some j => (.ofInstant j zone, [])
  | none => (.ofInstant clock.now zone, [.timestampOutOfRange i])

def drawTimestamp (c : Settings) (clock : Time.Clock) (r : RecordView) (s : σ) :
    Run σ RenderError :=
  match c.format with
  | none => .idle s
  | some f =>
    let (m, events) := moment (c.zone clock) clock (r.timestamp.getD clock.now)
    match f.render? m with
    | none => ⟨.failed (.timestamp f.text), s, events⟩
    | some text =>
      (Run.raise s events).andThen fun s => .ofCalls .sink (Sink.perform s (.text text))

def severityEvents (r : RecordView) : List Event :=
  if r.shownSeverity = .unknown then [.unknownSeverity r.severity] else []

def setColors (p : ColorPair) : List Call := [.foreground p.foreground, .background p.background]

/-- The colors from before are set again also after a failure, and the first failure counts. -/
def drawTag (severity : Severity) (p : ColorPair) (s : σ) : Outcome String × σ :=
  let prior := Sink.colors s
  let (written, s₁) := Sink.performAll s (setColors p ++ [.text severity.tag])
  match written with
  | .aborted m => (.aborted m, s₁)
  | _ =>
    let (restored, s₂) := Sink.performAll s₁ (setColors prior)
    match restored with
    | .aborted m => (.aborted m, s₂)
    | _ => (written.first restored, s₂)

/-- Draws a record. A failing call gives the record up, and lines already written stay. -/
def render (c : Settings) (clock : Time.Clock) (r : RecordView) (s : σ) : Run σ RenderError :=
  (drawTimestamp c clock r s).andThen fun s =>
  (Run.raise s (severityEvents r)).andThen fun s =>
  (Run.ofCalls .sink (drawTag r.shownSeverity (c.policy.colorsFor r.shownSeverity) s)).andThen
    fun s => .ofCalls .sink (Sink.performAll s (r.lines.map .line))

end Render

end ConsoleLog
