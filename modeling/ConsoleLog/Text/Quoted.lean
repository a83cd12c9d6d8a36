import ConsoleLog.Text.Invisible

/-!
# Quoted texts

A quoted text stands between double quotes. NUL, tab, line feed, carriage return, the quote and the
backslash have short escapes; every other invisible character is written by its code point.
-/

namespace ConsoleLog.Text

def codePoint (c : Char) : List Char :=
  ['\\', 'u', '\x7b'] ++ Nat.toDigits 16 c.toNat ++ ['\x7d']

def escape (c : Char) : List Char :=
  if c = '\x00' then ['\\', '0']
  else if c = '\t' then ['\\', 't']
  else if c = '\r' then ['\\', 'r']
  else if c = '\n' then ['\\', 'n']
  else if c = '\x22' then ['\\', '\x22']
  else if c = '\\' then ['\\', '\\']
  else if isInvisible c then codePoint c
  else [c]

def quoted (cs : List Char) : List Char :=
  '\x22' :: cs.flatMap escape ++ ['\x22']

def quote (text : String) : String := String.ofList (quoted text.toList)

end ConsoleLog.Text
