import ConsoleLog.Color
import ConsoleLog.Severity

/-!
# Color policies

A policy gives every severity a pair of colors. `ofEntries` builds one from a list of entries, the
last entry of a severity being the one that counts, and refuses a list that leaves a severity out.
-/

namespace ConsoleLog

inductive ConfigError where
  | missingColors (severity : Severity)
  | badTimestampFormat (format : String)
  deriving DecidableEq, Repr

structure ColorPolicy where
  trace : ColorPair
  debug : ColorPair
  info : ColorPair
  warn : ColorPair
  fail : ColorPair
  critical : ColorPair
  unknown : ColorPair
  deriving DecidableEq, Repr

abbrev ColorEntry := Severity × ColorPair

namespace ConfigError

def message : ConfigError → String
  | .missingColors s => "color policy has no entry for severity " ++ "\x60" ++ s.tag ++ "\x60"
  | .badTimestampFormat f => "invalid timestamp format " ++ Text.quote f

end ConfigError

namespace ColorPolicy

def colorsFor (p : ColorPolicy) : Severity → ColorPair
  | .trace => p.trace
  | .debug => p.debug
  | .info => p.info
  | .warn => p.warn
  | .fail => p.fail
  | .critical => p.critical
  | .unknown => p.unknown

def entries (p : ColorPolicy) : List ColorEntry :=
  Severity.all.map fun s => (s, p.colorsFor s)

def lastPair? (es : List ColorEntry) (s : Severity) : Option ColorPair :=
  es.reverse.lookup s

/-- The entries that count, in the order of the severities. -/
def table (es : List ColorEntry) : List ColorEntry :=
  Severity.all.filterMap fun s => (lastPair? es s).map fun p => (s, p)

def entryFor (es : List ColorEntry) (s : Severity) : Except ConfigError ColorPair :=
  match lastPair? es s with
  | some p => .ok p
  | none => .error (.missingColors s)

def ofEntries (es : List ColorEntry) : Except ConfigError ColorPolicy := do
  let trace ← entryFor es .trace
  let debug ← entryFor es .debug
  let info ← entryFor es .info
  let warn ← entryFor es .warn
  let fail ← entryFor es .fail
  let critical ← entryFor es .critical
  let unknown ← entryFor es .unknown
  return ⟨trace, debug, info, warn, fail, critical, unknown⟩

def standard : ColorPolicy where
  trace := ⟨.gray, .black⟩
  debug := ⟨.gray, .black⟩
  info := ⟨.darkGreen, .black⟩
  warn := ⟨.yellow, .black⟩
  fail := ⟨.black, .darkRed⟩
  critical := ⟨.white, .darkRed⟩
  unknown := ⟨.gray, .black⟩

def describe (p : ColorPolicy) : String :=
  "ColorPolicy \x7b pairs: [" ++ ", ".intercalate (p.entries.map fun e => e.2.describe) ++ "] \x7d"

end ColorPolicy

end ConsoleLog
