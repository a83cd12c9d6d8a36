import ConsoleLog.Json.Skip
import ConsoleLog.Policy

/-!
# Host configuration

The settings that a host keeps in JSON: an object, or an array of the settings in their order. Each
may be left out or null. `HostConfig.read` checks neither the timestamp format nor that all
severities have colors.
-/

namespace ConsoleLog

structure HostConfig where
  format : Option String
  utc : Option Bool
  /-- In the order in which they are written. -/
  colors : Option (List ColorEntry)

open Json (Reader ReadError)

/-! ## Colors -/

namespace Severity

def keys : List (String × Severity) :=
  [("trace", .trace), ("trce", .trace), ("dbug", .debug), ("debug", .debug), ("info", .info),
   ("warn", .warn), ("fail", .fail), ("crit", .critical), ("critical", .critical),
   ("unkn", .unknown), ("unknown", .unknown)]

def ofKey (key : String) : Except ReadError Severity :=
  match keys.lookup key with
  | some s => .ok s
  | none => .error (.unknownName key (keys.map (·.1)))

end Severity

namespace Color

def ofName (name : String) : Except ReadError Color :=
  match named? name with
  | some c => .ok c
  | none => .error (.unknownName name (all.map Color.name))

/-- A color's name from its opening quote on. Nothing else can stand there. -/
def readName : Reader Color := fun cs => do
  let cs ← Json.expectChar '\x22' cs
  let (name, cs) ← Json.ofOption (Json.text? cs)
  let c ← ofName name
  return (c, cs)

/-- A color is its name, or an object that holds null under the name. -/
def read : Reader Color := fun cs =>
  match Json.skipSpace cs with
  | '\x7b' :: cs => do
    let (c, cs) ← readName cs
    let (_, cs) ← Json.fieldValue (Json.null "unit") cs
    let cs ← Json.expectChar '\x7d' cs
    return (c, cs)
  | cs => readName cs

end Color

namespace ColorPair

structure Draft where
  foreground : Option Color
  background : Option Color

def Draft.read (d : Draft) (key : String) : Reader Draft := fun cs =>
  match key with
  | "foreground" =>
    (Json.fieldOnce key d.foreground Color.read cs).map fun r => ({ d with foreground := r.1 }, r.2)
  | "background" =>
    (Json.fieldOnce key d.background Color.read cs).map fun r => ({ d with background := r.1 }, r.2)
  | _ => (Json.fieldValue Json.skip cs).map fun r => (d, r.2)

def Draft.pair (d : Draft) : Except ReadError ColorPair :=
  match d.foreground, d.background with
  | some f, some b => .ok ⟨f, b⟩
  | none, _ => .error (.missingField "foreground")
  | some _, none => .error (.missingField "background")

def expected : String := "struct ColorPair"

/-- The rest of a pair that is written as an array. -/
def readItems : Reader ColorPair := fun cs => do
  let (foreground, cs) ← Json.item? true Color.read cs
  let some f := foreground | .error (.tooShort 0 (expected ++ " with 2 elements"))
  let (background, cs) ← Json.item? false Color.read cs
  let some b := background | .error (.tooShort 1 (expected ++ " with 2 elements"))
  let cs ← Json.expectChar ']' cs
  return (⟨f, b⟩, cs)

def read : Reader ColorPair := fun cs =>
  match Json.skipSpace cs with
  | '[' :: cs => readItems cs
  | '\x7b' :: cs => do
    let (draft, cs) ← Json.fields Draft.read ⟨none, none⟩ cs
    let p ← draft.pair
    return (p, cs)
  | cs => .error (Json.mismatch expected cs)

end ColorPair

namespace ColorEntry

/-- One more entry, its key looked up before its colon is read. -/
def readAfter (es : List ColorEntry) (key : String) : Reader (List ColorEntry) := fun cs => do
  let s ← Severity.ofKey key
  let (p, cs) ← Json.fieldValue ColorPair.read cs
  return (es ++ [(s, p)], cs)

def readAll : Reader (List ColorEntry) := fun cs =>
  match Json.skipSpace cs with
  | '\x7b' :: cs => Json.fields readAfter [] cs
  | cs => .error (Json.mismatch "a map" cs)

end ColorEntry

/-! ## Settings -/

namespace HostConfig

/-- The fields that have been read, null ones too. -/
structure Draft where
  format : Option (Option String)
  utc : Option (Option Bool)
  colors : Option (Option (List ColorEntry))

def readFormat : Reader (Option String) := Json.optional (Json.string "a string")

def readUtc : Reader (Option Bool) := Json.optional Json.boolean

def readColors : Reader (Option (List ColorEntry)) := Json.optional ColorEntry.readAll

def Draft.read (d : Draft) (key : String) : Reader Draft := fun cs =>
  match key with
  | "timestampFormat" =>
    (Json.fieldOnce key d.format readFormat cs).map fun r => ({ d with format := r.1 }, r.2)
  | "useUtcTimestamp" =>
    (Json.fieldOnce key d.utc readUtc cs).map fun r => ({ d with utc := r.1 }, r.2)
  | "colors" =>
    (Json.fieldOnce key d.colors readColors cs).map fun r => ({ d with colors := r.1 }, r.2)
  | _ => (Json.fieldValue Json.skip cs).map fun r => (d, r.2)

def Draft.config (d : Draft) : HostConfig := ⟨d.format.join, d.utc.join, d.colors.join⟩

/-- The rest of a configuration that is written as an array. -/
def readItems : Reader HostConfig := fun cs => do
  let (format, cs) ← Json.item? true readFormat cs
  let (utc, cs) ← Json.item? false readUtc cs
  let (colors, cs) ← Json.item? false readColors cs
  let cs ← Json.expectChar ']' cs
  return (⟨format.join, utc.join, colors.join⟩, cs)

def reader : Reader HostConfig := fun cs =>
  match Json.skipSpace cs with
  | '[' :: cs => readItems cs
  | '\x7b' :: cs => do
    let (draft, cs) ← Json.fields Draft.read ⟨none, none, none⟩ cs
    return (draft.config, cs)
  | cs => .error (Json.mismatch "struct ExporterConfig" cs)

def read (text : String) : Except ReadError HostConfig := Json.whole reader text

def policy? (c : HostConfig) : Except ConfigError (Option ColorPolicy) :=
  match c.colors with
  | none => .ok none
  | some es => (ColorPolicy.ofEntries es).map some

end HostConfig

end ConsoleLog
