import Fixtures.Settings
import Fixtures.Twister.Draw
import Fixtures.Value.Basic

/-!
# Seeded bytes

Reproducible bytes: every call starts a generator of its own with the fixed seed, so the bytes
depend on their number only, and fewer bytes are the first ones of more.
-/

namespace Fixtures.SeededBytes

/-- Why no bytes are made. -/
inductive Failure where
  /-- The number of bytes is below zero. -/
  | negative
  /-- The number of bytes is a floating point number that is not below zero. -/
  | notAnInteger
  /-- The number of bytes is a value that cannot be compared with zero. -/
  | incomparable (kindName : String)
  /-- No output of the generator would ever be accepted. -/
  | endless
  deriving DecidableEq

/-- The message of a failure. -/
def Failure.message : Failure → String
  | .negative => "n must be a non-negative integer"
  | .notAnInteger => "'float' object cannot be interpreted as an integer"
  | .incomparable kindName =>
    "'<' not supported between instances of '" ++ kindName ++ "' and 'int'"
  | .endless => "no output would ever be accepted"

/-- Draws bytes below the bound, in front of which `drawn` are there already, the last one first. -/
def draw : (count : Nat) → (drawn : List UInt8) → Twister.Generator → Option (List UInt8)
  | 0, drawn, _ => some drawn.reverse
  | count + 1, drawn, g =>
    match g.below Settings.byteUpperBound with
    | none => none
    | some (n, g) => draw count (UInt8.ofNat n :: drawn) g

/-- The first bytes of the seeded generator. -/
def first (count : Nat) : Option (List UInt8) :=
  draw count [] .seeded

/-- The number of bytes that a value asks for. -/
def count (n : Value) : Except Failure Nat :=
  match n with
  | .float x => if x.isNegative then .error .negative else .error .notAnInteger
  | n =>
    match n.asInteger? with
    | some n => if n < 0 then .error .negative else .ok n.toNat
    | none => .error (.incomparable n.kindName)

/-- As many seeded bytes as a value asks for (`random_bytes`). -/
def ofValue (n : Value) : Except Failure (List UInt8) := do
  match first (← count n) with
  | some bytes => .ok bytes
  | none => .error .endless

end Fixtures.SeededBytes
