/-!
# Console colors

The sixteen colors of a console, and `default` for whatever the terminal shows when none is set.
-/

namespace ConsoleLog

inductive Color where
  | default | black | darkBlue | darkGreen | darkCyan | darkRed | darkMagenta | darkYellow | gray
  | darkGray | blue | green | cyan | red | magenta | yellow | white
  deriving DecidableEq, Repr

structure ColorPair where
  foreground : Color
  background : Color
  deriving DecidableEq, Repr

namespace Color

def all : List Color :=
  [.default, .black, .darkBlue, .darkGreen, .darkCyan, .darkRed, .darkMagenta, .darkYellow, .gray,
   .darkGray, .blue, .green, .cyan, .red, .magenta, .yellow, .white]

def name : Color → String
  | .default => "Default"
  | .black => "Black"
  | .darkBlue => "DarkBlue"
  | .darkGreen => "DarkGreen"
  | .darkCyan => "DarkCyan"
  | .darkRed => "DarkRed"
  | .darkMagenta => "DarkMagenta"
  | .darkYellow => "DarkYellow"
  | .gray => "Gray"
  | .darkGray => "DarkGray"
  | .blue => "Blue"
  | .green => "Green"
  | .cyan => "Cyan"
  | .red => "Red"
  | .magenta => "Magenta"
  | .yellow => "Yellow"
  | .white => "White"

def named? (text : String) : Option Color := all.find? fun c => c.name == text

end Color

namespace ColorPair

def describe (p : ColorPair) : String :=
  "ColorPair \x7b foreground: " ++ p.foreground.name ++ ", background: " ++ p.background.name ++
    " \x7d"

end ColorPair

end ConsoleLog
