import ConsoleLog.Text.Blank
import ConsoleLog.Text.Numeral
import ConsoleLog.Text.Quoted

/-!
# Severities

A host reports a severity as a level or as a number. Both fold onto the seven severities that a
rendered record can show, by a table of levels and by bands of four numbers in 1 to 24.
-/

namespace ConsoleLog

inductive Level where
  | trace | debug | information | warning | error | critical | unassigned
  deriving DecidableEq, Repr

structure UnknownLevel where
  text : String
  deriving DecidableEq, Repr

/-- The severity of a record as the host reports it. -/
inductive Reported where
  | level (l : Level)
  | number (n : Int32)
  deriving DecidableEq

/-- The severities that a rendered record shows, in ascending order. -/
inductive Severity where
  | trace | debug | info | warn | fail | critical | unknown
  deriving DecidableEq, Repr

namespace UnknownLevel

def message (e : UnknownLevel) : String :=
  "unrecognised log level: " ++ Text.quote e.text

end UnknownLevel

namespace Level

def names : List (String × Level) :=
  [("trace", .trace), ("trce", .trace),
   ("debug", .debug), ("dbug", .debug),
   ("info", .information), ("information", .information),
   ("warn", .warning), ("warning", .warning),
   ("error", .error), ("fail", .error),
   ("critical", .critical), ("crit", .critical), ("fatal", .critical),
   ("none", .unassigned)]

def named? (text : String) : Option Level := names.lookup (Text.fold text)

def parse (text : String) : Except UnknownLevel Level :=
  match named? text with
  | some l => .ok l
  | none => .error ⟨text⟩

def name : Level → String
  | .trace => "Trace"
  | .debug => "Debug"
  | .information => "Information"
  | .warning => "Warning"
  | .error => "Error"
  | .critical => "Critical"
  | .unassigned => "None"

def severity : Level → Severity
  | .trace => .trace
  | .debug => .debug
  | .information => .info
  | .warning => .warn
  | .error => .fail
  | .critical => .critical
  | .unassigned => .unknown

end Level

namespace Severity

def all : List Severity := [.trace, .debug, .info, .warn, .fail, .critical, .unknown]

/-- The four letters that start a rendered record. -/
def tag : Severity → String
  | .trace => "trce"
  | .debug => "dbug"
  | .info => "info"
  | .warn => "warn"
  | .fail => "fail"
  | .critical => "crit"
  | .unknown => "unkn"

theorem isLower_of_mem_tag {s : Severity} {c : Char} (h : c ∈ s.tag.toList) : c.isLower = true := by
  have hall : s.tag.toList.all Char.isLower = true := by cases s <;> rfl
  exact List.all_eq_true.mp hall c h

def rank : Severity → Nat
  | .trace => 0
  | .debug => 1
  | .info => 2
  | .warn => 3
  | .fail => 4
  | .critical => 5
  | .unknown => 6

def distinct (ss : List Severity) : List Severity := all.filter ss.contains

def ofNumber (n : Int) : Severity :=
  if n < 1 then .unknown
  else if n ≤ 4 then .trace
  else if n ≤ 8 then .debug
  else if n ≤ 12 then .info
  else if n ≤ 16 then .warn
  else if n ≤ 20 then .fail
  else if n ≤ 24 then .critical
  else .unknown

end Severity

namespace Reported

def severity : Reported → Severity
  | .level l => l.severity
  | .number n => .ofNumber n.toInt

def describe : Reported → String
  | .level l => "Level(" ++ l.name ++ ")"
  | .number n => "Number(" ++ String.ofList (Text.signed n.toInt) ++ ")"

end Reported

end ConsoleLog
