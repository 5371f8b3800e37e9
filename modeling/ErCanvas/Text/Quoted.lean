import ErCanvas.Text.Encoding
import ErCanvas.Text.Printable

/-! # Quoted text

A text inside a message or a list is shown between quotes: single ones, or double ones when it holds
a single quote and no double quote. The backslash and the chosen quote are escaped, as are line
ends, tabs and every code that has no visible form. -/

namespace ErCanvas.Text

/-- A code without a visible form, by its digits. -/
def escapeCode (n : Nat) : List Char :=
  if n < 0x100 then '\\' :: 'x' :: hexadecimal 2 n
  else if n < 0x10000 then '\\' :: 'u' :: hexadecimal 4 n
  else '\\' :: 'U' :: hexadecimal 8 n

/-- A character as it stands between quotes of the kind `quote`. -/
def escapeChar (quote c : Char) : List Char :=
  if c = '\\' || c = quote then ['\\', c]
  else if c = '\n' then ['\\', 'n']
  else if c = '\r' then ['\\', 'r']
  else if c = '\t' then ['\\', 't']
  else if isPrintable c then [c]
  else escapeCode c.toNat

/-- A code as it stands between quotes of the kind `quote`. -/
def escapeIn (quote : Char) (n : Nat) : List Char :=
  if isHalf n then escapeCode n else escapeChar quote (Char.ofNat n)

/-- The quote that a text is shown in. -/
def quoteFor (cs : List Char) : Char :=
  if cs.contains '\'' && !cs.contains '"' then '"' else '\''

/-- A text between quotes. -/
def quoted (s : String) : String :=
  let cs := s.toList
  let quote := quoteFor cs
  String.ofList (quote :: (codes cs).flatMap (escapeIn quote) ++ [quote])

end ErCanvas.Text
