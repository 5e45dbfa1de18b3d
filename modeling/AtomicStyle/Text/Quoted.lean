import AtomicStyle.Number.Numeral
import AtomicStyle.Text.Printable

/-!
# Quoted text

A message shows a text between quotes, on one line and in printable characters only.  The quotes
are single ones unless the text holds a single quote and no double one.  Inside, the backslash and
the quote in use are written behind a backslash, line breaks and tabs by their letters, and every
other hidden character by its code point in hexadecimal, in the shortest of three widths.

* `quoteFor` - the quote character chosen for a text;
* `escapeChar` - how one character is written;
* `quoted` - the text between its quotes.
-/

namespace AtomicStyle.Text

/-- The quote character that a text is put between. -/
def quoteFor (text : List Char) : Char :=
  if text.contains '\'' && !text.contains '"' then '"' else '\''

/-- The code point of a hidden character, in two, four or eight hexadecimal digits. -/
def escapePoint (c : Char) : List Char :=
  let n := c.toNat
  if n < 0x100 then '\\' :: 'x' :: Numeral.hexadecimal 2 n
  else if n < 0x10000 then '\\' :: 'u' :: Numeral.hexadecimal 4 n
  else '\\' :: 'U' :: Numeral.hexadecimal 8 n

/-- How a character is written between the given quotes. -/
def escapeChar (quote c : Char) : List Char :=
  if c = quote || c = '\\' then ['\\', c]
  else if c = '\n' then ['\\', 'n']
  else if c = '\r' then ['\\', 'r']
  else if c = '\t' then ['\\', 't']
  else if isPrintable c then [c]
  else escapePoint c

/-- A text between quotes, as messages show it. -/
def quoted (text : List Char) : List Char :=
  let quote := quoteFor text
  quote :: text.flatMap (escapeChar quote) ++ [quote]

end AtomicStyle.Text
