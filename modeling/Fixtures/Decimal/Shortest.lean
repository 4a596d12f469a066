/-!
# Shortest decimals

The shortest decimal for a floating point number is the one with the fewest digits that still
reads back as that number: the decimals that do are those between the midpoints to the number's
two neighbours. Grids of ever finer powers of ten are tried, and on each the two points around
the number are compared with the midpoints in exact integer arithmetic. The first grid with a
point in the interval wins, and the nearer of two points on it.
-/

namespace Fixtures

/-- A whole number of units of a power of ten. -/
structure Decimal where
  /-- The digits, read as one number. -/
  digits : Nat
  /-- The power of ten they are multiplied by. -/
  exponent : Int
  deriving DecidableEq, Inhabited

namespace Decimal

/-- The whole part of a significand times two to an exponent times ten to the 324th. -/
def scaledPart (significand : Nat) (exponent : Int) : Nat :=
  significand * Nat.pow 2 exponent.toNat * Nat.pow 10 324 / Nat.pow 2 (-exponent).toNat

/-- The power of ten at the first digit of a positive number of the 64-bit format, the least of
which has its first digit 324 places behind the point. -/
def leadingPower (significand : Nat) (exponent : Int) : Int :=
  (Nat.toDigits 10 (scaledPart significand exponent)).length - 325

/-- A number of the 64-bit format between the midpoints to its neighbours, all three counted in
quarters of the unit of its significand. -/
structure Gap where
  /-- The midpoint below. -/
  lower : Nat
  /-- The number itself. -/
  value : Nat
  /-- The midpoint above. -/
  upper : Nat
  /-- Whether the midpoints themselves read back as the number. -/
  closed : Bool

/-- The least significand of the numbers that have all 53 bits of precision. -/
def leastNormal : Nat := 0x10000000000000

/-- The gap around a number. Below a power of two the neighbours lie half as far apart, except at
the lowest exponent. Midpoints go to the neighbour with the even significand. -/
def Gap.around (significand : Nat) (exponent : Int) : Gap where
  lower := if significand = leastNormal ∧ -1074 < exponent then 4 * significand - 1
    else 4 * significand - 2
  value := 4 * significand
  upper := 4 * significand + 2
  closed := significand % 2 = 0

/-- Whether a point lies in the gap, when a quarter is `fine` and the step of the points is
`coarse` in a common unit. -/
def Gap.holds (gap : Gap) (fine coarse point : Nat) : Bool :=
  if gap.closed then decide (gap.lower * fine ≤ point * coarse ∧ point * coarse ≤ gap.upper * fine)
  else decide (gap.lower * fine < point * coarse ∧ point * coarse < gap.upper * fine)

/-- The multiple of a power of ten nearest to a number among those that read back as it; of two
that are equally near, the even one. -/
def onGrid? (significand : Nat) (exponent power : Int) : Option Nat :=
  let gap := Gap.around significand exponent
  let fine := Nat.pow 2 (exponent - 2).toNat * Nat.pow 10 (-power).toNat
  let coarse := Nat.pow 2 (2 - exponent).toNat * Nat.pow 10 power.toNat
  let below := gap.value * fine / coarse
  let above := below + 1
  let toBelow := gap.value * fine - below * coarse
  let toAbove := above * coarse - gap.value * fine
  if gap.holds fine coarse below then
    if gap.holds fine coarse above && (toAbove < toBelow || toAbove = toBelow && above % 2 = 0)
    then some above
    else some below
  else if gap.holds fine coarse above then some above
  else none

/-- The exact decimal of a significand times two to an exponent. -/
def exact (significand : Nat) (exponent : Int) : Decimal :=
  ⟨significand * Nat.pow 2 exponent.toNat * Nat.pow 5 (-exponent).toNat, min exponent 0⟩

/-- The shortest decimal that reads back as a positive number. Seventeen digits always suffice;
should they not, the exact decimal stands in. -/
def shortest (significand : Nat) (exponent : Int) : Decimal :=
  let top := leadingPower significand exponent + 1
  let hit := (List.range 18).findSome? fun (places : Nat) =>
    let power := top - places
    (onGrid? significand exponent power).map fun digits => Decimal.mk digits power
  hit.getD (exact significand exponent)

end Decimal

end Fixtures
