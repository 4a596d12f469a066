import Fixtures.Proofs.Twister.Recurrence
import Mathlib

/-!
# Bits of words

Read in the field of two elements, the bits of a word that is made by shifts, masks, and exclusive
or are sums of bits of the words it is made from. Here this is said of the words of the recurrence
and of the top bit of an output.
-/

namespace Fixtures.Twister

/-- A bit of a word, as an element of the field of two elements. -/
def bit (w : UInt32) (b : Nat) : ZMod 2 :=
  if w.toNat.testBit b then 1 else 0

/-- A word has no bits behind its highest one. -/
theorem bit_of_le (w : UInt32) {b : Nat} (h : 32 ≤ b) : bit w b = 0 := by
  have hlt : w.toNat < 2 ^ b :=
    Nat.lt_of_lt_of_le w.toNat_lt (Nat.pow_le_pow_right (by decide) h)
  rw [bit, Nat.testBit_lt_two_pow hlt]
  rfl

/-- Bits of an exclusive or are sums. -/
theorem bit_xor (v w : UInt32) (b : Nat) : bit (v ^^^ w) b = bit v b + bit w b := by
  rw [bit, bit, bit, UInt32.toNat_xor, Nat.testBit_xor]
  cases v.toNat.testBit b <;> cases w.toNat.testBit b <;> rfl

/-- A mask keeps the bits it has. -/
theorem bit_and (w mask : UInt32) (b : Nat) :
    bit (w &&& mask) b = if mask.toNat.testBit b then bit w b else 0 := by
  rw [bit, bit, UInt32.toNat_and, Nat.testBit_and]
  cases mask.toNat.testBit b <;> simp

/-- A shift to the right moves the bits down. -/
theorem bit_shiftRight (w count : UInt32) (b : Nat) (h : count.toNat < 32) :
    bit (w >>> count) b = bit w (count.toNat + b) := by
  rw [bit, bit, UInt32.toNat_shiftRight, Nat.mod_eq_of_lt h, Nat.testBit_shiftRight]

/-- A shift to the left moves the bits up, as far as the word reaches. -/
theorem bit_shiftLeft (w count : UInt32) {b : Nat} (hb : b < 32) (h : count.toNat ≤ b) :
    bit (w <<< count) b = bit w (b - count.toNat) := by
  have hcount : count.toNat < 32 := by omega
  rw [bit, bit, UInt32.toNat_shiftLeft, Nat.mod_eq_of_lt hcount, Nat.testBit_mod_two_pow,
    Nat.testBit_shiftLeft, decide_eq_true hb, decide_eq_true h]
  simp only [Bool.true_and]

/-- A bit of the word that is moved down where words are twisted: the top bit of one word above the
other bits of its successor. -/
def joinedBit (upper lower : UInt32) (b : Nat) : ZMod 2 :=
  if b < 31 then bit lower b else bit upper b

/-- The bits of the joined word. -/
theorem bit_join (upper lower : UInt32) (b : Nat) :
    bit ((upper &&& 0x80000000) ||| (lower &&& 0x7fffffff)) b = joinedBit upper lower b := by
  have hupper : (0x80000000 : UInt32).toNat.testBit b = decide (31 = b) :=
    Nat.testBit_two_pow (n := 31)
  have hlower : (0x7fffffff : UInt32).toNat.testBit b = decide (b < 31) :=
    Nat.testBit_two_pow_sub_one 31 b
  rw [bit, UInt32.toNat_or, UInt32.toNat_and, UInt32.toNat_and, Nat.testBit_or, Nat.testBit_and,
    Nat.testBit_and, hupper, hlower, joinedBit]
  rcases Nat.lt_trichotomy b 31 with hb | hb | hb
  · simp [hb, show ¬ 31 = b by omega, bit]
  · simp [hb, bit]
  · have hbit := bit_of_le upper hb
    simp [show ¬ b < 31 by omega, show ¬ 31 = b by omega, hbit]

/-- Twisting moves the joined bits down, and adds the constant of the recurrence where the bit that
falls out is set. -/
theorem bit_twist (upper lower : UInt32) (b : Nat) :
    bit (twist upper lower) b =
      joinedBit upper lower (b + 1) + bit 0x9908b0df b * joinedBit upper lower 0 := by
  simp only [twist]
  rw [bit_xor, bit_shiftRight _ _ _ (by decide), ← bit_join, ← bit_join, Nat.add_comm b 1]
  congr 1
  generalize (upper &&& 0x80000000) ||| (lower &&& 0x7fffffff) = joined
  have hodd : joined &&& 1 = 1 ↔ joined.toNat.testBit 0 = true := by
    rw [← UInt32.toNat_inj, UInt32.toNat_and, Nat.testBit_zero, decide_eq_true_eq]
    exact Eq.congr_left (Nat.and_one_is_mod _)
  by_cases h : joined &&& 1 = 1
  · rw [if_pos h, bit.eq_def joined, if_pos (hodd.mp h), mul_one]
  · rw [if_neg h, bit.eq_def joined, if_neg (fun hbit => h (hodd.mpr hbit)), mul_zero]
    simp [bit]

/-- The top bit of an output is a sum of four bits of its word. -/
theorem bit_temper (w : UInt32) :
    bit (temper w) 31 = bit w 31 + bit w 24 + (bit w 16 + bit w 27) := by
  simp only [temper]
  generalize hv : w ^^^ (w >>> 11) = v
  generalize hu : v ^^^ ((v <<< 7) &&& 0x9d2c5680) = u
  have hv_bit (b : Nat) : bit v b = bit w b + bit w (11 + b) := by
    rw [← hv, bit_xor, bit_shiftRight _ _ _ (by decide)]
    rfl
  have hu_top : bit u 31 = bit v 31 + bit v 24 := by
    rw [← hu, bit_xor, bit_and, if_pos (by decide), bit_shiftLeft _ _ (by decide) (by decide)]
    rfl
  have hu_half : bit u 16 = bit v 16 := by
    rw [← hu, bit_xor, bit_and, if_neg (by decide), add_zero]
  rw [bit_xor, bit_xor, bit_and, if_pos (by decide), bit_shiftLeft _ _ (by decide) (by decide),
    bit_shiftRight _ _ _ (by decide), bit_of_le _ (b := UInt32.toNat 18 + 31) (by decide),
    add_zero, hu_top]
  have hlow : bit u (31 - UInt32.toNat 15) = bit v 16 := hu_half
  rw [hlow, hv_bit, hv_bit, hv_bit, bit_of_le w (show 32 ≤ 11 + 31 by decide),
    bit_of_le w (show 32 ≤ 11 + 24 by decide), add_zero, add_zero]

end Fixtures.Twister
