import ConsoleLog.Severity
import ConsoleLog.Time.Instant

/-!
# Diagnostic events

What an exporter reports about itself to the host, beside its output and its results.
-/

namespace ConsoleLog

inductive EventLevel where
  | debug | warn | error
  deriving DecidableEq, Repr

inductive EventField where
  | text (s : String)
  | flag (b : Bool)
  deriving DecidableEq, Repr

inductive Event where
  | built (format : Option String) (utc : Bool)
  | invalidVariable (source value : String)
  | unknownSeverity (severity : Reported)
  | timestampOutOfRange (instant : Time.Instant)
  | exportFailed (error : String)
  deriving DecidableEq

namespace Event

def level : Event → EventLevel
  | .invalidVariable .. => .warn
  | .exportFailed _ => .error
  | _ => .debug

def name : Event → String
  | .built .. => "SimpleConsoleExporter.Build"
  | .invalidVariable .. => "SimpleConsoleExporter.InvalidEnvValue"
  | .unknownSeverity _ => "SimpleConsoleExporter.UnknownSeverity"
  | .timestampOutOfRange _ => "SimpleConsoleExporter.TimestampOutOfRange"
  | .exportFailed _ => "SimpleConsoleExporter.ExportFailed"

def optionText (text : Option String) : String :=
  match text with
  | some s => "Some(" ++ Text.quote s ++ ")"
  | none => "None"

def fields : Event → List (String × EventField)
  | .built format utc =>
    [("timestamp_format", .text (optionText format)), ("use_utc_timestamp", .flag utc)]
  | .invalidVariable source value => [("variable", .text source), ("value", .text value)]
  | .unknownSeverity s => [("severity", .text s.describe)]
  | .timestampOutOfRange i => [("timestamp", .text i.describe)]
  | .exportFailed e => [("error", .text e)]

end Event

end ConsoleLog
