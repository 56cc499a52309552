/-
  LatencyPlot.Text.Quoted

  A text between double quotes, fit for one line of a message: the quote and
  the backslash are escaped with a backslash, and what is invisible is named
  by a letter or by its code point in lower-case hexadecimal.
-/
import LatencyPlot.Text.Invisible

namespace LatencyPlot.Text

/-- A code point between braces after a backslash and `u`. -/
def codePoint (c : Char) : List Char :=
  '\\' :: 'u' :: '\x7b' :: (Nat.toDigits 16 c.toNat ++ ['\x7d'])

/-- How a character is written between quotes. -/
def escapeChar (c : Char) : List Char :=
  if c = '\x00' then ['\\', '0']
  else if c = '\t' then ['\\', 't']
  else if c = '\n' then ['\\', 'n']
  else if c = '\r' then ['\\', 'r']
  else if c = '"' then ['\\', '"']
  else if c = '\\' then ['\\', '\\']
  else if isInvisible c then codePoint c
  else [c]

/-- The text between quotes. -/
def quote (cs : List Char) : List Char :=
  '"' :: (cs.flatMap escapeChar ++ ['"'])

/-- The text between quotes, as a string. -/
def quoted (s : String) : String := String.ofList (quote s.toList)

end LatencyPlot.Text
