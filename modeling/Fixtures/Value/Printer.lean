import Fixtures.Decimal.Layout
import Fixtures.Text.Quoted
import Fixtures.Value.Basic

/-!
# Texts of values

Every value has a text. Lists stand in brackets and tuples in parentheses, with a comma and a
space between members and one more comma after the only member of a tuple. Texts and byte strings
are quoted. Numbers are written in full, and floating point numbers by their shortest decimals.
-/

namespace Fixtures.Value

/-- Decimals from 0.0001 up to 10^16 are written around a point, whole ones end in `.0`, and
powers of ten have a sign and at least two digits. -/
def floatLayout : Decimal.Layout where
  lowest := -4
  tooHigh := 16
  wholeEnd := ['.', '0']
  powerMark := 'e'
  powerWidth := 2
  infinite := "inf".toList
  undefined := "nan".toList

/-- The decimal digits of an integer, behind a minus sign if it is negative. -/
def intChars (n : Int) : List Char :=
  if n < 0 then '-' :: Nat.toDigits 10 n.natAbs else Nat.toDigits 10 n.natAbs

/-- Texts with a comma and a space between them. -/
def commaSeparated (texts : List (List Char)) : List Char :=
  List.intercalate [',', ' '] texts

mutual

/-- The characters of a value's text, under a choice of the printable characters. -/
def chars (printable : Char → Bool) : Value → List Char
  | .null => "None".toList
  | .bool b => if b then "True".toList else "False".toList
  | .int n => intChars n
  | .float x => floatLayout.writeBinary x
  | .text s => Text.Quoted.write printable s.toList
  | .bytes b => Text.Quoted.writeBytes b
  | .list xs => '[' :: (commaSeparated (textsBehind printable [] xs) ++ [']'])
  | .tuple xs =>
    '(' :: (commaSeparated (textsBehind printable [] xs)
      ++ (if xs.length = 1 then [',', ')'] else [')']))

/-- The texts of members, behind texts that are there already, the last one first. -/
def textsBehind (printable : Char → Bool) (before : List (List Char)) :
    List Value → List (List Char)
  | [] => before.reverse
  | x :: xs => textsBehind printable (chars printable x :: before) xs

end

/-- The texts of members are their texts one by one. -/
theorem textsBehind_eq (printable : Char → Bool) (before : List (List Char)) (xs : List Value) :
    textsBehind printable before xs = before.reverse ++ xs.map (chars printable) := by
  induction xs generalizing before with
  | nil => simp [textsBehind]
  | cons x xs ih => simp [textsBehind, ih]

/-- The text of a value. -/
def display (v : Value) : String :=
  String.ofList (chars Text.isPrintable v)

end Fixtures.Value
