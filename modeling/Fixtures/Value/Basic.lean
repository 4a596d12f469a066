import Fixtures.Decimal.Binary64

/-!
# Values

The values that a producer hands out and that a client passes in: nothing, truth values, integers
of any size, floating point numbers, texts, byte strings, and lists and tuples of values. A list
and a tuple with the same members are different values. Members are values as well, so nothing is
shared between two lists, and texts are made of characters, so no surrogate stands alone in them.
-/

namespace Fixtures

/-- A value. -/
inductive Value where
  /-- The value that stands for nothing. -/
  | null
  /-- A truth value. -/
  | bool (b : Bool)
  /-- An integer of any size. -/
  | int (n : Int)
  /-- A floating point number. -/
  | float (x : Binary64)
  /-- A text. -/
  | text (s : String)
  /-- A byte string. -/
  | bytes (b : List UInt8)
  /-- A list of values. -/
  | list (xs : List Value)
  /-- A tuple of values. -/
  | tuple (xs : List Value)
  deriving Inhabited

namespace Value

/-- The name of a value's kind, as messages give it. -/
def kindName : Value → String
  | .null => "NoneType"
  | .bool _ => "bool"
  | .int _ => "int"
  | .float _ => "float"
  | .text _ => "str"
  | .bytes _ => "bytes"
  | .list _ => "list"
  | .tuple _ => "tuple"

/-- The integer that a value counts as: its own, or one and zero for the truth values. -/
def asInteger? : Value → Option Int
  | .bool b => some (if b then 1 else 0)
  | .int n => some n
  | _ => none

/-- The members of a value that can be gone through: the characters of a text are texts, and the
bytes of a byte string are integers. -/
def members? : Value → Option (List Value)
  | .text s => some (s.toList.map fun c => .text (String.ofList [c]))
  | .bytes b => some (b.map fun byte => .int byte.toNat)
  | .list xs => some xs
  | .tuple xs => some xs
  | _ => none

end Value

end Fixtures
