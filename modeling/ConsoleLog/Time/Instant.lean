import ConsoleLog.Text.Numeral
import ConsoleLog.Word

/-!
# Instants

An instant is a number of whole seconds from the epoch and a fraction that counts forward. The
system knows it by its distance from the epoch, after or before; `calendar?` goes back from the
distance to the seconds, by steps that a word may refuse, and refuses what the calendar does not cover.
-/

namespace ConsoleLog.Time

def nanosPerSecond : Nat := 1000000000

structure Instant where
  seconds : Int64
  nanos : Nat
  nanos_lt : nanos < nanosPerSecond := by decide
  deriving DecidableEq

structure Span where
  seconds : Nat
  nanos : Nat
  nanos_lt : nanos < nanosPerSecond := by decide
  deriving DecidableEq

inductive Distance where
  | after (s : Span)
  | before (s : Span)
  deriving DecidableEq

/-- The first second of year -262143. -/
def firstSecond : Int := -8334601228800

/-- The last second of year 262142. -/
def lastSecond : Int := 8210266876799

namespace Span

def ofNanos (n : Nat) : Span :=
  ⟨n / nanosPerSecond, n % nanosPerSecond, Nat.mod_lt _ (by decide)⟩

def word? (s : Span) : Option Int64 := Word.ofInt? s.seconds

end Span

namespace Distance

def span : Distance → Span
  | .after s => s
  | .before s => s

end Distance

namespace Instant

def epoch : Instant := ⟨0, 0, by decide⟩

def inCalendar (i : Instant) : Bool :=
  firstSecond ≤ i.seconds.toInt && i.seconds.toInt ≤ lastSecond

def totalNanos (i : Instant) : Int := i.seconds.toInt * nanosPerSecond + i.nanos

def distance (i : Instant) : Distance :=
  if 0 ≤ i.totalNanos then .after (.ofNanos i.totalNanos.natAbs)
  else .before (.ofNanos i.totalNanos.natAbs)

def covered? (i : Instant) : Option Instant := if i.inCalendar then some i else none

/-- A fraction before the epoch counts forward from the second below. -/
def ofDistance? : Distance → Option Instant
  | .after s => s.word?.map fun w => ⟨w, s.nanos, s.nanos_lt⟩
  | .before s => (s.word?.bind Word.neg?).bind fun w =>
    if h : s.nanos = 0 then some ⟨w, 0, by decide⟩
    else (Word.sub? w 1).map fun w =>
      ⟨w, nanosPerSecond - s.nanos, Nat.sub_lt (by decide) (Nat.pos_of_ne_zero h)⟩

def calendar? (i : Instant) : Option Instant := (ofDistance? i.distance).bind covered?

def describe (i : Instant) : String :=
  "SystemTime \x7b tv_sec: " ++ String.ofList (Text.signed i.seconds.toInt) ++ ", tv_nsec: " ++
    String.ofList (Text.decimal i.nanos) ++ " \x7d"

end Instant

end ConsoleLog.Time
