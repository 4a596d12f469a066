import Fixtures.Value.Basic

/-!
# Equality of values

Truth values, integers and floating point numbers are equal if they denote the same number,
however large it is. Lists are equal to lists and tuples to tuples, member by member; texts and
byte strings are equal to their own kind only.
-/

namespace Fixtures.Value

/-- The number that a value denotes, with one and zero for the truth values. -/
def magnitude? : Value → Option Magnitude
  | .bool b => some (.exact (if b then 1 else 0))
  | .int n => some (.exact n)
  | .float x => some x.magnitude
  | _ => none

mutual

/-- Whether two values are equal. -/
def same : Value → Value → Bool
  | .list xs, .list ys => sameAll xs ys
  | .tuple xs, .tuple ys => sameAll xs ys
  | .null, .null => true
  | .text s, .text t => s == t
  | .bytes b, .bytes c => b == c
  | .bool b, w => decide (some (.exact (if b then 1 else 0)) = w.magnitude?)
  | .int n, w => decide (some (.exact n) = w.magnitude?)
  | .float x, w => decide (some x.magnitude = w.magnitude?)
  | _, _ => false

/-- Whether two lists have the same length and equal members at each place. -/
def sameAll : List Value → List Value → Bool
  | [], [] => true
  | x :: xs, y :: ys => same x y && sameAll xs ys
  | _, _ => false

end

mutual

/-- Every value is equal to itself. -/
theorem same_self : (v : Value) → v.same v = true
  | .null => by simp [same]
  | .bool b => by simp [same, magnitude?]
  | .int n => by simp [same, magnitude?]
  | .float x => by simp [same, magnitude?]
  | .text s => by simp [same]
  | .bytes b => by simp [same]
  | .list xs => by simp [same, sameAll_self xs]
  | .tuple xs => by simp [same, sameAll_self xs]

/-- The members of a list are equal to themselves, place by place. -/
theorem sameAll_self : (xs : List Value) → sameAll xs xs = true
  | [] => by simp [sameAll]
  | x :: xs => by simp [sameAll, same_self x, sameAll_self xs]

end

end Fixtures.Value
