/-!
# Hexadecimal digits

Numbers in base sixteen are written with letters in lower case. Bytes are read from pairs of digits
in either case, and blanks may stand between two bytes, not within one.
-/

namespace Fixtures.Text

/-- A hexadecimal digit. -/
def hexDigit (n : Nat) : Char :=
  if n < 10 then Char.ofNat (0x30 + n) else Char.ofNat (0x57 + n)

/-- The last `width` hexadecimal digits of a number, the highest first. -/
def hexDigits : (width : Nat) → (n : Nat) → List Char
  | 0, _ => []
  | width + 1, n => hexDigits width (n / 16) ++ [hexDigit (n % 16)]

/-- A number has as many digits as are asked for. -/
@[simp] theorem length_hexDigits (width n : Nat) : (hexDigits width n).length = width := by
  induction width generalizing n with
  | zero => rfl
  | succ width ih => simp [hexDigits, ih]

/-- The digits of bytes, two for each. -/
def hexOfBytes (bytes : List UInt8) : List Char :=
  bytes.flatMap fun b => hexDigits 2 b.toNat

/-- The value of a hexadecimal digit. -/
def hexValue? (c : Char) : Option Nat :=
  let n := c.toNat
  if 0x30 ≤ n ∧ n ≤ 0x39 then some (n - 0x30)
  else if 0x41 ≤ n ∧ n ≤ 0x46 then some (n - 0x37)
  else if 0x61 ≤ n ∧ n ≤ 0x66 then some (n - 0x57)
  else none

/-- A place at which a text does not go on as bytes. -/
structure HexFault where
  /-- The number of characters before it. -/
  place : Nat
  deriving DecidableEq

/-- The message of a fault. -/
def HexFault.message (fault : HexFault) : String :=
  "non-hexadecimal number found in fromhex() arg at position " ++ toString fault.place

/-- The blanks that may stand between bytes: the space, the tabs and the line ends of ASCII. -/
def isGap (c : Char) : Bool :=
  c = ' ' || (0x9 ≤ c.toNat && c.toNat ≤ 0xd)

/-- Reads bytes from a place on. A first digit may have been read, and `bytes` have been, the last
one first. -/
def readHexFrom (place : Nat) (digit : Option Nat) (bytes : List UInt8) :
    List Char → Except HexFault (List UInt8)
  | [] => if digit.isSome then .error ⟨place⟩ else .ok bytes.reverse
  | c :: rest =>
    if digit.isNone && isGap c then readHexFrom (place + 1) none bytes rest
    else match hexValue? c, digit with
      | none, _ => .error ⟨place⟩
      | some low, some high =>
        readHexFrom (place + 1) none (UInt8.ofNat (16 * high + low) :: bytes) rest
      | some high, none => readHexFrom (place + 1) (some high) bytes rest

/-- The bytes of a text. A character beyond ASCII is a fault wherever it stands. -/
def bytesOfHex (cs : List Char) : Except HexFault (List UInt8) :=
  match cs.findIdx? fun c => 0x80 ≤ c.toNat with
  | some place => .error ⟨place⟩
  | none => readHexFrom 0 none [] cs

end Fixtures.Text
