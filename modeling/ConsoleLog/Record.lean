import ConsoleLog.Record.Value
import ConsoleLog.Severity
import ConsoleLog.Text.Lines
import ConsoleLog.Time.Instant

/-!
# Records and their views

A log record comes from a pipeline with a scope, optional fields and a list of attributes. What a
console shows of a record is its view; a host may also hand over views that it made itself.
-/

namespace ConsoleLog

structure RecordView where
  severity : Reported
  category : String
  eventId : Int64
  formatted : Option String
  body : Option String
  exception : Option String
  timestamp : Option Time.Instant

structure LogRecord where
  scope : String
  severityText : Option String
  severityNumber : Option Int32
  target : Option String
  body : Option Value
  attributes : List (String × Value)
  timestamp : Option Time.Instant
  observed : Option Time.Instant

/-- The text, unless there is none in it. -/
def nonempty? (text : Option String) : Option String := text.filter (· ≠ "")

/-- A whole number in a text, blanks around it allowed, if a signed word of 64 bits holds it. -/
def readEventId? (text : String) : Option Int64 :=
  (Text.integer? (Text.trim text.toList)).bind Word.ofInt?

namespace RecordView

def message (r : RecordView) : String := ((nonempty? r.formatted).or r.body).getD ""

def exceptionLines (r : RecordView) : List String :=
  match r.exception with
  | some text => Text.transcriptLines text
  | none => []

end RecordView

namespace LogRecord

def attribute? (r : LogRecord) (key : String) : Option Value := r.attributes.lookup key

/-- The level that the severity text names, else the severity number, which is 0 when absent. -/
def severity (r : LogRecord) : Reported :=
  match r.severityText.bind Level.named? with
  | some l => .level l
  | none => .number (r.severityNumber.getD 0)

def category (r : LogRecord) : String := (nonempty? r.target).getD r.scope

def eventId (r : LogRecord) : Int64 :=
  match r.attribute? "event.id" with
  | some (.int i) => i
  | some (.string t) => (readEventId? t.content).getD 0
  | _ => 0

/-- Only a text is taken for a formatted message. -/
def formatted (r : LogRecord) : Option String :=
  match r.body with
  | some (.string t) => some t.content
  | _ => none

def exceptionHeader (r : LogRecord) : Option String :=
  let kind := (r.attribute? "exception.type").map Value.asText
  let message := (r.attribute? "exception.message").map Value.asText
  match kind, message with
  | some k, some m => some (k ++ ": " ++ m)
  | some k, none => some k
  | none, m => m

def exception (r : LogRecord) : Option String :=
  let trace := (r.attribute? "exception.stacktrace").map Value.asText
  match r.exceptionHeader, trace with
  | some h, some t => some (h ++ "\n" ++ t)
  | some h, none => some h
  | none, t => t

def view (r : LogRecord) : RecordView where
  severity := r.severity
  category := r.category
  eventId := r.eventId
  formatted := r.formatted
  body := r.body.map Value.asText
  exception := r.exception
  timestamp := r.timestamp.or r.observed

end LogRecord

end ConsoleLog
