import Fixtures.Decimal.Binary64
import Fixtures.Decimal.Shortest

/-!
# Layouts of decimals

A layout says which decimals are written out around a point and which as one digit before the
point with a power of ten, and how the pieces look. Numbers of the 64-bit format are written by
their shortest decimals.
-/

namespace Fixtures

/-- How decimals are laid out. -/
structure Decimal.Layout where
  /-- The lowest power of ten at the first digit that is written around a point. -/
  lowest : Int
  /-- The first power of ten at the first digit that is too high for it. -/
  tooHigh : Int
  /-- What follows a whole number written around a point. -/
  wholeEnd : List Char
  /-- The mark in front of the power of ten. -/
  powerMark : Char
  /-- The least number of digits of the power of ten. -/
  powerWidth : Nat
  /-- The text of an infinity. -/
  infinite : List Char
  /-- The text of a value that is no number. -/
  undefined : List Char

namespace Decimal

/-- Digits around a point, the first of them at the given power of ten. -/
def Layout.around (layout : Layout) (digits : List Char) (power : Int) : List Char :=
  if power < 0 then
    '0' :: '.' :: (List.replicate (-power - 1).toNat '0' ++ digits)
  else
    let whole := power.toNat + 1
    let zeros := List.replicate (whole - digits.length) '0'
    let rest := digits.drop whole
    digits.take whole ++ zeros ++ (if rest.isEmpty then layout.wholeEnd else '.' :: rest)

/-- A power of ten behind its mark, with its sign and at least the layout's number of digits. -/
def Layout.power (layout : Layout) (power : Int) : List Char :=
  let digits := Nat.toDigits 10 power.natAbs
  let zeros := List.replicate (layout.powerWidth - digits.length) '0'
  layout.powerMark :: (if power < 0 then '-' else '+') :: (zeros ++ digits)

/-- One digit before the point, the others behind it, and a power of ten. -/
def Layout.scientific (layout : Layout) (digits : List Char) (power : Int) : List Char :=
  let point := if digits.length ≤ 1 then [] else ['.']
  digits.take 1 ++ point ++ digits.drop 1 ++ layout.power power

/-- A decimal, written by its digits. -/
def Layout.write (layout : Layout) (decimal : Decimal) : List Char :=
  let digits := Nat.toDigits 10 decimal.digits
  let power := decimal.exponent + digits.length - 1
  if layout.lowest ≤ power ∧ power < layout.tooHigh then layout.around digits power
  else layout.scientific digits power

/-- A number of the 64-bit format, written by its shortest decimal. -/
def Layout.writeBinary (layout : Layout) : Binary64 → List Char
  | .finite negative significand exponent =>
    let sign := if negative then ['-'] else []
    sign ++ (if significand = 0 then layout.write ⟨0, 0⟩
      else layout.write (shortest significand exponent))
  | .infinite negative => (if negative then ['-'] else []) ++ layout.infinite
  | .undefined _ => layout.undefined

end Decimal

end Fixtures
