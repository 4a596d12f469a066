/-!
# Limits of the machine

Some numbers that clients pass are handed on to the machine, which holds integers within bounds
only, and gives room for no more than it has. Room is asked for before anything is there to fill
it: for as many items as are claimed, and for as many bytes as may be read. How much room there is
differs from machine to machine, so what asks for room does so of some machine or other.
-/

namespace Fixtures

namespace Machine

/-- Whether an integer lies below a bound and not below its negative is decided on natural numbers,
so that a proof that meets a large bound never counts down from it. -/
def decideWithin (bound : Nat) : (n : Int) → Decidable (-(bound : Int) ≤ n ∧ n < bound)
  | .ofNat m => decidable_of_iff (m < bound) (by
      rw [Int.ofNat_eq_natCast]
      omega)
  | .negSucc m => decidable_of_iff (m < bound) (by
      rw [Int.negSucc_eq]
      omega)

/-- Machine integers lie below this bound, and not below its negative. -/
def integerBound : Nat := 0x8000000000000000

/-- A machine integer can hold the integer. -/
def Holds (n : Int) : Prop :=
  -integerBound ≤ n ∧ n < integerBound

instance (n : Int) : Decidable (Holds n) :=
  decideWithin integerBound n

/-- Short machine integers lie below this bound, and not below its negative. -/
def shortBound : Nat := 0x80000000

/-- A short machine integer can hold the integer. -/
def HoldsShort (n : Int) : Prop :=
  -shortBound ≤ n ∧ n < shortBound

instance (n : Int) : Decidable (HoldsShort n) :=
  decideWithin shortBound n

/-- The number of bytes that an item takes in a container, which refers to it. -/
def referenceSize : Nat := 8

/-- The number of bytes that a byte string takes beside its content. -/
def byteStringOverhead : Nat := 33

end Machine

/-- A machine, by the room that it has. -/
class Machine where
  /-- The number of bytes from which on there is no room. -/
  memoryBound : Nat
  /-- No byte string that there is room for is too large. -/
  memoryBound_le : memoryBound + Machine.byteStringOverhead ≤ Machine.integerBound

namespace Machine

/-- A machine with room for 31 GiB, which is meant where no other one is named. -/
instance standard : Machine where
  memoryBound := 0x7c0000000
  memoryBound_le := by decide

/-- Why room is not given. -/
inductive Shortage where
  /-- There is not as much room. -/
  | noRoom
  /-- No byte string can be as long. -/
  | byteStringTooLarge
  deriving DecidableEq

/-- The message of a shortage. -/
def Shortage.message : Shortage → String
  | .noRoom => ""
  | .byteStringTooLarge => "byte string is too large"

/-- Makes room for items. -/
def reserve [Machine] (count : Nat) : Except Shortage Unit :=
  if memoryBound ≤ referenceSize * count then .error .noRoom else .ok ()

/-- Makes room for a byte string. -/
def reserveBytes [Machine] (length : Nat) : Except Shortage Unit :=
  if integerBound ≤ length + byteStringOverhead then .error .byteStringTooLarge
  else if memoryBound ≤ length then .error .noRoom
  else .ok ()

/-- There is room for a byte string below the bound. -/
theorem reserveBytes_of_lt [Machine] {length : Nat} (h : length < memoryBound) :
    reserveBytes length = .ok () := by
  have hshort : ¬ integerBound ≤ length + byteStringOverhead := by
    have hbound := memoryBound_le
    omega
  rw [reserveBytes, if_neg hshort, if_neg (Nat.not_le_of_lt h)]

/-- There is no room for a byte string from the bound on. -/
theorem exists_reserveBytes_eq_error [Machine] {length : Nat} (h : memoryBound ≤ length) :
    ∃ shortage, reserveBytes length = .error shortage := by
  unfold reserveBytes
  split
  · exact ⟨_, rfl⟩
  · exact ⟨_, rfl⟩

end Machine

end Fixtures
