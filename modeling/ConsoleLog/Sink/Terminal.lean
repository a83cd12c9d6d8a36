import ConsoleLog.Sink.Device
import ConsoleLog.Text.Numeral

/-!
# Terminal sinks

A sink over a byte device, with colors as escape sequences. A terminal cannot be asked for its
colors, so the sink tracks the colors that it set, and starts from the terminal's own.
-/

namespace ConsoleLog

inductive ColorMode where
  | full
  /-- Background colors are tracked and not written. -/
  | foregroundOnly
  | disabled
  deriving DecidableEq, Repr

structure Terminal where
  device : Device
  mode : ColorMode
  colors : ColorPair

namespace Text

def bytes (text : String) : List UInt8 := text.toByteArray.data.toList

end Text

namespace Color

def palette? : Color → Option Nat
  | .default => none
  | .black => some 0
  | .darkRed => some 1
  | .darkGreen => some 2
  | .darkYellow => some 3
  | .darkBlue => some 4
  | .darkMagenta => some 5
  | .darkCyan => some 6
  | .gray => some 7
  | .darkGray => some 8
  | .red => some 9
  | .green => some 10
  | .yellow => some 11
  | .blue => some 12
  | .magenta => some 13
  | .cyan => some 14
  | .white => some 15

end Color

namespace ColorMode

def showsForeground : ColorMode → Bool
  | .disabled => false
  | _ => true

def showsBackground : ColorMode → Bool
  | .full => true
  | _ => false

def name : ColorMode → String
  | .full => "Full"
  | .foregroundOnly => "ForegroundOnly"
  | .disabled => "Disabled"

end ColorMode

/-! ## Escape sequences -/

/-- Layer 3 is the foreground and layer 4 the background. -/
def sgr (layer : Nat) (c : Color) : String :=
  let code := match c.palette? with
    | some n => "8;5;" ++ String.ofList (Text.decimal n)
    | none => "9"
  "\x1b[" ++ String.ofList (Text.decimal layer) ++ code ++ "m"

def foregroundSgr (c : Color) : String := sgr 3 c

def backgroundSgr (c : Color) : String := sgr 4 c

namespace Terminal

def new (mode : ColorMode) (device : Device) : Terminal := ⟨device, mode, ⟨.default, .default⟩⟩

/-- The sink that an exporter has if it is given no other: standard output with the foreground
colors. -/
def standard : Terminal := new .foregroundOnly (.new none [])

def write (s : Terminal) (text : String) : Outcome String × Terminal :=
  let (o, d) := s.device.write (Text.bytes text)
  (o, { s with device := d })

def flush (s : Terminal) : Outcome String × Terminal :=
  let (o, d) := s.device.flush
  (o, { s with device := d })

/-- A line is its text, a line feed and a flush; what fails leaves the rest out. -/
def writeLine (s : Terminal) (text : String) : Outcome String × Terminal :=
  match s.write text with
  | (.done, s₁) =>
    match s₁.write "\n" with
    | (.done, s₂) => s₂.flush
    | r => r
  | r => r

/-- The color is tracked once its sequence has been written, if it is to be written at all. -/
def changeColor (s : Terminal) (shown : Bool) (sequence : String) (c : Call) :
    Outcome String × Terminal :=
  if shown then
    match s.write sequence with
    | (.done, s') => (.done, { s' with colors := c.recolor s'.colors })
    | r => r
  else (.done, { s with colors := c.recolor s.colors })

def perform (s : Terminal) : Call → Outcome String × Terminal
  | .text t => s.write t
  | .line t => s.writeLine t
  | .foreground c => s.changeColor s.mode.showsForeground (foregroundSgr c) (.foreground c)
  | .background c => s.changeColor s.mode.showsBackground (backgroundSgr c) (.background c)

instance : Sink Terminal where
  colors s := s.colors
  perform := perform

def describe (s : Terminal) : String :=
  "AnsiSink \x7b colors: " ++ s.mode.name ++ ", foreground: " ++ s.colors.foreground.name ++
    ", background: " ++ s.colors.background.name ++ " \x7d"

end Terminal

end ConsoleLog
