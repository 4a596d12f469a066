import Fixtures.Text.Hex
import Fixtures.Text.Printable

/-!
# Quoted texts

A text is written between quotes: single ones, or double ones where it holds a single and no
double quote. Inside, the backslash and the quote in use stand behind a backslash, tab and the
line ends have letters of their own, printable characters stand as they are, and every other
character is written by its code point in two, four or eight hexadecimal digits. Which characters
are printable is a parameter: texts and byte strings differ in nothing else.
-/

namespace Fixtures.Text.Quoted

/-- The quote that goes around a text. -/
def quoteFor (cs : List Char) : Char :=
  if cs.contains '\'' && !cs.contains '"' then '"' else '\''

/-- A character by its code point: two digits after `x`, four after `u`, or eight after `U`. -/
def byCodePoint (c : Char) : List Char :=
  let code := c.toNat
  if code ≤ 0xff then '\\' :: 'x' :: hexDigits 2 code
  else if code ≤ 0xffff then '\\' :: 'u' :: hexDigits 4 code
  else '\\' :: 'U' :: hexDigits 8 code

/-- A character as it is written between quotes of one kind. -/
def escape (printable : Char → Bool) (quote c : Char) : List Char :=
  if c = '\\' ∨ c = quote then ['\\', c]
  else if c = '\t' then ['\\', 't']
  else if c = '\n' then ['\\', 'n']
  else if c = '\r' then ['\\', 'r']
  else if printable c then [c]
  else byCodePoint c

/-- Characters between quotes. -/
def write (printable : Char → Bool) (cs : List Char) : List Char :=
  let quote := quoteFor cs
  quote :: cs.flatMap (escape printable quote) ++ [quote]

/-- A text between quotes. -/
def quote (s : String) : String :=
  String.ofList (write isPrintable s.toList)

/-- The characters that have the bytes as their code points. -/
def charsOfBytes (bytes : List UInt8) : List Char :=
  bytes.map fun byte => Char.ofNat byte.toNat

/-- Bytes between quotes, behind the mark `b`. -/
def writeBytes (bytes : List UInt8) : List Char :=
  'b' :: write isPrintableAscii (charsOfBytes bytes)

end Fixtures.Text.Quoted
