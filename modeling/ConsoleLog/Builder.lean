import ConsoleLog.Exporter
import ConsoleLog.HostConfig
import ConsoleLog.Sink.Terminal

/-!
# Building an exporter

A builder collects settings step by step, each step over the ones before. What no step has set is
taken from the environment when the exporter is built, and from the defaults after that.
-/

namespace ConsoleLog

/-- The variables that settings are taken from, each in bytes if it is set. -/
structure Environment where
  timestampFormat : Option ByteArray
  useUtcTimestamp : Option ByteArray

structure Builder (σ : Type) where
  sink : σ
  format : Option String
  utc : Option Bool
  policy : ColorPolicy

inductive BuildStep where
  | timestampFormat (format : String)
  | utc (b : Bool)
  | policy (es : List ColorEntry)
  /-- Settings read from the text of a host's configuration. -/
  | config (text : String)

inductive BuildError where
  | config (e : ConfigError)
  | read (e : Json.ReadError)

namespace Environment

/-- A variable that is not UTF-8 counts as not set. -/
def text? (variableBytes : Option ByteArray) : Option String := variableBytes.bind String.fromUTF8?

def formatText? (env : Environment) : Option String := text? env.timestampFormat

def utcText? (env : Environment) : Option String := text? env.useUtcTimestamp

/-- The flag that a text sets, which a blank text turns off. -/
def flag? (text : String) : Option Bool :=
  let folded := Text.fold text
  if folded = "true" then some true
  else if folded = "false" ∨ folded = "" then some false
  else none

def utcVariable : String := "OTEL_SIMPLE_CONSOLE_USE_UTC_TIMESTAMP"

/-- The flag of the environment. A text that sets none is reported. -/
def utc (env : Environment) : Bool × List Event :=
  match env.utcText? with
  | none => (false, [])
  | some text =>
    match flag? text with
    | some b => (b, [])
    | none => (false, [.invalidVariable utcVariable text])

end Environment

namespace Builder

variable {σ : Type}

def new (s : σ) : Builder σ := ⟨s, none, none, .standard⟩

def standard : Builder Terminal := new .standard

def withPolicy (b : Builder σ) (p : ColorPolicy) : Builder σ := { b with policy := p }

def withConfig (b : Builder σ) (c : HostConfig) : Except ConfigError (Builder σ) :=
  c.policy?.map fun p =>
    { b with
      format := c.format.or b.format
      utc := c.utc.or b.utc
      policy := p.getD b.policy }

def step (b : Builder σ) : BuildStep → Except BuildError (Builder σ)
  | .timestampFormat f => .ok { b with format := some f }
  | .utc u => .ok { b with utc := some u }
  | .policy es => ((ColorPolicy.ofEntries es).map b.withPolicy).mapError .config
  | .config text =>
    match HostConfig.read text with
    | .error e => .error (.read e)
    | .ok c => (b.withConfig c).mapError .config

def steps (b : Builder σ) (ss : List BuildStep) : Except BuildError (Builder σ) :=
  ss.foldlM step b

/-- The format in effect, and none if it is empty. -/
def resolveFormat (env : Environment) (b : Builder σ) : Option String :=
  nonempty? (b.format.or env.formatText?)

def resolveUtc (env : Environment) (b : Builder σ) : Bool × List Event :=
  match b.utc with
  | some u => (u, [])
  | none => env.utc

def build (env : Environment) (b : Builder σ) : Except ConfigError (Exporter σ) × List Event :=
  let (utc, events) := b.resolveUtc env
  match Settings.ofFormat (b.resolveFormat env) utc b.policy with
  | .error e => (.error e, events)
  | .ok c => (.ok ⟨c, .new b.sink, false⟩, events ++ [.built c.formatText c.utc])

def utcText : Option Bool → String
  | some u => "Some(" ++ Value.boolText u ++ ")"
  | none => "None"

def describe (b : Builder Terminal) : String :=
  "SimpleConsoleExporterBuilder \x7b sink: " ++ b.sink.describe ++ ", timestamp_format: " ++
    Event.optionText b.format ++ ", use_utc_timestamp: " ++ utcText b.utc ++ ", color_policy: " ++
    b.policy.describe ++ " \x7d"

end Builder

end ConsoleLog
