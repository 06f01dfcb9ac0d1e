import Chip8.Text.Printable
import Chip8.Text.Layout

/-! # Quoted text

Text as messages quote it: in single quotes, or in double quotes if it holds single ones and
no double ones. The quote in use and the backslash are escaped, and so are line ends, tabs
and all characters that are not printable.
-/

namespace Chip8.Text

def quoteFor (s : List Char) : Char :=
  if s.contains '\'' && !s.contains '"' then '"' else '\''

/-- Escape by code point, in the shortest of the three forms that holds it. -/
def escapeCode (c : Char) : String :=
  let digits (width : Nat) := padLeft '0' width (String.ofList (Nat.toDigits 16 c.toNat))
  if c.toNat < 0x100 then "\\x" ++ digits 2
  else if c.toNat < 0x10000 then "\\u" ++ digits 4
  else "\\U" ++ digits 8

def escape (quote c : Char) : String :=
  if c = quote || c = '\\' then String.ofList ['\\', c]
  else if c = '\n' then "\\n"
  else if c = '\r' then "\\r"
  else if c = '\t' then "\\t"
  else if isPrintable c then c.toString
  else escapeCode c

def quoted (s : String) : String :=
  let quote := quoteFor s.toList
  quote.toString ++ String.join (s.toList.map (escape quote)) ++ quote.toString

end Chip8.Text
