/-
# Quoted text

Two ways to write a text between double quotes. In JSON only the quote, the backslash and the
control characters below the space are escaped. In a message about a token every character that
would not show is spelled out as well.
-/
import RowExpr.Text.Printable

namespace RowExpr.Text

/-- The lower case hexadecimal digits of `n`. -/
def hex (n : Nat) : List Char := Nat.toDigits 16 n

/-- The escape of one character inside a JSON string. -/
def jsonEscape (c : Char) : List Char :=
  if c = '"' then ['\\', '"']
  else if c = '\\' then ['\\', '\\']
  else if c = '\x08' then ['\\', 'b']
  else if c = '\t' then ['\\', 't']
  else if c = '\n' then ['\\', 'n']
  else if c = '\x0c' then ['\\', 'f']
  else if c = '\r' then ['\\', 'r']
  else if c.toNat < 32 then
    ['\\', 'u', '0', '0'] ++ List.replicate (2 - (hex c.toNat).length) '0' ++ hex c.toNat
  else [c]

/-- A text as a JSON string, quotes included. -/
def jsonQuote (cs : List Char) : List Char := '"' :: cs.flatMap jsonEscape ++ ['"']

/-- The escape of one character inside a message. -/
def messageEscape (c : Char) : List Char :=
  if c = '"' then ['\\', '"']
  else if c = '\\' then ['\\', '\\']
  else if c = '\x00' then ['\\', '0']
  else if c = '\t' then ['\\', 't']
  else if c = '\r' then ['\\', 'r']
  else if c = '\n' then ['\\', 'n']
  else if isPrintable c then [c]
  else ['\\', 'u', '\x7b'] ++ hex c.toNat ++ ['\x7d']

/-- A text as a message quotes it. -/
def messageQuote (s : String) : String :=
  String.ofList ('"' :: s.toList.flatMap messageEscape ++ ['"'])

end RowExpr.Text
