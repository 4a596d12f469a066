/-!
# Binary floating point numbers

A number of the 64-bit format is a sign with a significand and a power of two, an infinity, or no
number at all. Two numbers are compared by the exact values they denote, never through rounding,
so a floating point number and an integer of any size can be told apart.
-/

namespace Fixtures

/-- What a pattern of 64 bits denotes. -/
inductive Binary64 where
  /-- The significand times two to the exponent, with a sign that zero has too. -/
  | finite (negative : Bool) (significand : Nat) (exponent : Int)
  /-- A value beyond all finite ones. -/
  | infinite (negative : Bool)
  /-- No number. Such a value equals nothing but itself, so each occurrence has a mark. -/
  | undefined (mark : Nat)
  deriving DecidableEq, Inhabited

/-- A value by which numbers are compared. -/
inductive Magnitude where
  /-- An exact rational number. -/
  | exact (value : Rat)
  /-- Beyond all rational numbers. -/
  | infinite (negative : Bool)
  /-- The occurrence of a value that is no number. -/
  | undefined (mark : Nat)
  deriving DecidableEq

namespace Binary64

/-- Reads a bit pattern: the sign, eleven bits of exponent, and 52 bits of significand, which has
one more bit in front unless the exponent is the lowest. The mark is used if it is no number. -/
def ofBits (bits : UInt64) (mark : Nat) : Binary64 :=
  let negative := decide (0x8000000000000000 ≤ bits.toNat)
  let exponent : Nat := bits.toNat / 0x10000000000000 % 0x800
  let fraction : Nat := bits.toNat % 0x10000000000000
  if exponent = 0x7ff then
    if fraction = 0 then .infinite negative else .undefined mark
  else if exponent = 0 then .finite negative fraction (-1074)
  else .finite negative (0x10000000000000 + fraction) ((exponent : Int) - 1075)

/-- A significand times two to an exponent. -/
def scaled (significand : Nat) (exponent : Int) : Rat :=
  mkRat (significand * Nat.pow 2 exponent.toNat) (Nat.pow 2 (-exponent).toNat)

/-- The exact value, in which both zeros are one. -/
def magnitude : Binary64 → Magnitude
  | .finite negative significand exponent =>
    .exact (if negative then -scaled significand exponent else scaled significand exponent)
  | .infinite negative => .infinite negative
  | .undefined mark => .undefined mark

/-- Whether a number lies below zero. -/
def isNegative : Binary64 → Bool
  | .finite negative significand _ => negative && significand != 0
  | .infinite negative => negative
  | .undefined _ => false

end Binary64

end Fixtures
