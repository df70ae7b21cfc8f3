import AccessGraph.Text.Printable
/-!
# Quoted text

`Text.quote` writes a text between double quotes so that it can be read on one line: quotes and
backslashes get a backslash, four controls have a letter of their own, and every other character
that is not printable is shown by its code point in hexadecimal.
-/

namespace AccessGraph.Text

/-- How a character is shown inside quotes. -/
def quoteChar (c : Char) : List Char :=
  if c = '\x00' then ['\\', '0']
  else if c = '\t' then ['\\', 't']
  else if c = '\n' then ['\\', 'n']
  else if c = '\r' then ['\\', 'r']
  else if c = '"' then ['\\', '"']
  else if c = '\\' then ['\\', '\\']
  else if isPrintable c then [c]
  else ['\\', 'u', '\x7b'] ++ Nat.toDigits 16 c.toNat ++ ['\x7d']

/-- A text between double quotes. -/
def quote (s : String) : String :=
  String.ofList ('"' :: (s.toList.flatMap quoteChar ++ ['"']))

/-- A name between backquotes, as messages cite it. -/
def cite (name : String) : String := "\x60" ++ name ++ "\x60"

end AccessGraph.Text
