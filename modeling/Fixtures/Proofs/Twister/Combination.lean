import Fixtures.Proofs.Twister.Bits
import Mathlib

/-!
# Combinations of shifted bit sequences

A polynomial over the field of two elements combines a bit sequence with shifted copies of itself.
The bits of the words of the recurrence feed each other from the highest down to the lowest, and
the lowest feeds them all, so one polynomial takes all of them to zero. Its coefficients sum to
one. A sequence that it takes to zero can therefore not be set on a window as long as its degree,
and some output of every window that long has a clear top bit.
-/

open Polynomial

namespace Fixtures.Twister

/-- Takes a bit sequence on by one place. -/
def advance : Module.End (ZMod 2) (Nat → ZMod 2) :=
  LinearMap.funLeft (ZMod 2) (ZMod 2) (· + 1)

/-- Combines a bit sequence with copies of itself that are taken on. -/
noncomputable def combine (p : (ZMod 2)[X]) : Module.End (ZMod 2) (Nat → ZMod 2) :=
  aeval advance p

/-- Taking a sequence on by several places. -/
theorem advance_pow (i : Nat) (t : Nat → ZMod 2) (k : Nat) : (advance ^ i) t k = t (k + i) := by
  induction i generalizing k with
  | zero => rfl
  | succ i ih =>
    rw [pow_succ', Module.End.mul_apply]
    have hstep : advance ((advance ^ i) t) k = (advance ^ i) t (k + 1) := rfl
    rw [hstep, ih, Nat.add_right_comm]
    rfl

/-- A power of the variable takes a sequence on. -/
theorem combine_X_pow (i : Nat) (t : Nat → ZMod 2) (k : Nat) :
    combine (X ^ i) t k = t (k + i) := by
  rw [combine, aeval_X_pow, advance_pow]

/-- Combinations follow one another as polynomials are multiplied. -/
theorem combine_mul (p q : (ZMod 2)[X]) (t : Nat → ZMod 2) :
    combine (p * q) t = combine p (combine q t) := by
  rw [combine, combine, combine, map_mul]
  rfl

/-- Combinations are subtracted as polynomials are. -/
theorem combine_sub (p q : (ZMod 2)[X]) (t : Nat → ZMod 2) :
    combine (p - q) t = combine p t - combine q t := by
  rw [combine, combine, combine, map_sub]
  rfl

/-- A constant factor multiplies what a combination gives. -/
theorem combine_C_mul (c : ZMod 2) (p : (ZMod 2)[X]) (t : Nat → ZMod 2) :
    combine (C c * p) t = combine p (c • t) := by
  rw [← smul_eq_C_mul, combine, map_smul, LinearMap.smul_apply, ← LinearMap.map_smul]
  rfl

/-- A difference of two powers compares two places of a sequence. -/
theorem combine_X_pow_sub (i j : Nat) (t : Nat → ZMod 2) (k : Nat) :
    combine (X ^ i - X ^ j) t k = t (k + i) - t (k + j) := by
  rw [combine_sub, Pi.sub_apply, combine_X_pow, combine_X_pow]

/-- What a combination gives at a place: the sum of the later bits that the polynomial picks. -/
theorem combine_apply (p : (ZMod 2)[X]) (t : Nat → ZMod 2) (k : Nat) :
    combine p t k = ∑ i ∈ Finset.range (p.natDegree + 1), p.coeff i * t (k + i) := by
  rw [combine, aeval_eq_sum_range, LinearMap.sum_apply, Finset.sum_apply]
  refine Finset.sum_congr rfl ?_
  intro i _
  rw [LinearMap.smul_apply, Pi.smul_apply, advance_pow, smul_eq_mul]

/-- A sequence that a combination with the coefficient sum one takes to zero has a clear bit among
any bits in a row that are more than the degree. -/
theorem exists_clear_of_combine_eq_zero {p : (ZMod 2)[X]} {t : Nat → ZMod 2}
    (hsum : p.eval 1 = 1) (hzero : combine p t = 0) (k : Nat) :
    ∃ i ≤ p.natDegree, t (k + i) = 0 := by
  by_contra hset
  have hone (i : Nat) (hi : i ≤ p.natDegree) : t (k + i) = 1 := by
    have hbit : ∀ x : ZMod 2, x ≠ 0 → x = 1 := by decide
    exact hbit _ fun h => hset ⟨i, hi, h⟩
  have hall : combine p t k = p.eval 1 := by
    rw [combine_apply, eval_eq_sum_range]
    refine Finset.sum_congr rfl ?_
    intro i hi
    rw [hone i (Nat.lt_succ_iff.mp (Finset.mem_range.mp hi)), one_pow]
  rw [hzero, hsum] at hall
  exact zero_ne_one hall

variable (first : Block)

/-- The sequence of one bit of the words. -/
def Block.bits (b k : Nat) : ZMod 2 :=
  bit (first.word k) b

/-- The sequence of one bit of the joined words. -/
def Block.joined (b k : Nat) : ZMod 2 :=
  joinedBit (first.word k) (first.word (k + 1)) b

/-- Compares every place with the one 227 places before, 624 places on: what is left is what the
recurrence adds there. -/
@[irreducible]
noncomputable def taps : (ZMod 2)[X] :=
  X ^ 624 - X ^ 397

/-- The two places that are compared. -/
theorem combine_taps (t : Nat → ZMod 2) (k : Nat) :
    combine taps t k = t (k + 624) - t (k + 397) := by
  unfold taps
  exact combine_X_pow_sub 624 397 t k

/-- The coefficients of the comparison cancel. -/
theorem eval_taps : taps.eval 1 = 0 := by
  unfold taps
  simp only [eval_sub, eval_pow, eval_X, one_pow, sub_self]

/-- The degree of the comparison. -/
theorem natDegree_taps_le : taps.natDegree ≤ 624 := by
  unfold taps
  have hnear : (X ^ 397 : (ZMod 2)[X]).natDegree ≤ 624 :=
    (natDegree_X_pow_le 397).trans (by omega)
  exact (natDegree_sub_le _ _).trans (max_le (natDegree_X_pow_le 624) hnear)

/-- Every bit is fed by the joined bit above it, and by the lowest joined bit where the constant of
the recurrence has a bit. -/
theorem Block.combine_taps_bits (b : Nat) :
    combine taps (first.bits b) =
      first.joined (b + 1) + bit 0x9908b0df b • first.joined 0 := by
  funext k
  rw [combine_taps, Block.bits, Block.bits, first.word_add k, bit_xor, bit_twist,
    add_sub_cancel_left]
  rfl

/-- The bits below the top one are joined from the next word. -/
theorem Block.joined_of_lt {b : Nat} (h : b < 31) :
    first.joined b = combine X (first.bits b) := by
  funext k
  have hnext := combine_X_pow 1 (first.bits b) k
  rw [pow_one] at hnext
  rw [hnext, Block.joined, joinedBit, if_pos h]
  rfl

/-- The top bit is joined from the word itself. -/
theorem Block.joined_top : first.joined 31 = first.bits 31 := by
  funext k
  rw [Block.joined, joinedBit, if_neg (by decide)]
  rfl

/-- There is no joined bit above the top one. -/
theorem Block.joined_of_le {b : Nat} (h : 32 ≤ b) : first.joined b = 0 := by
  funext k
  rw [Block.joined, joinedBit, if_neg (by omega), bit_of_le _ h]
  rfl

/-- The polynomials that lead from the lowest joined bit to the others: the first one is one, and
each of the others undoes what feeds the bit before. -/
noncomputable def ladder : Nat → (ZMod 2)[X]
  | 0 => 1
  | b + 1 => taps * ladder b - C (bit 0x9908b0df b) * X ^ (b + 1)

/-- Every joined bit, taken on by as many places as it is high, is a combination of the lowest. -/
theorem Block.combine_ladder (b : Nat) (h : b ≤ 31) :
    combine (X ^ b) (first.joined b) = combine (ladder b) (first.joined 0) := by
  induction b with
  | zero => rw [pow_zero, ladder]
  | succ b ih =>
    have hlow : combine X (first.bits b) = first.joined b :=
      (first.joined_of_lt (by omega)).symm
    have hnext : first.joined (b + 1) =
        combine taps (first.bits b) - bit 0x9908b0df b • first.joined 0 := by
      rw [first.combine_taps_bits b, add_sub_cancel_right]
    have horder : X ^ (b + 1) * taps = taps * X ^ b * X := by
      rw [pow_succ, mul_comm, mul_assoc]
    calc combine (X ^ (b + 1)) (first.joined (b + 1))
        = combine (X ^ (b + 1)) (combine taps (first.bits b))
            - combine (X ^ (b + 1)) (bit 0x9908b0df b • first.joined 0) := by
          rw [hnext, map_sub]
      _ = combine taps (combine (X ^ b) (first.joined b))
            - combine (C (bit 0x9908b0df b) * X ^ (b + 1)) (first.joined 0) := by
          rw [← combine_mul, horder, combine_mul, combine_mul, hlow, combine_C_mul]
      _ = combine (ladder (b + 1)) (first.joined 0) := by
          rw [ih (by omega), ← combine_mul, ← combine_sub, ladder]

/-- What leads from the top bit, which nothing is above, back to the lowest bit. -/
noncomputable def closing : (ZMod 2)[X] :=
  taps * ladder 31 - X ^ 31

/-- The lowest joined bit is taken to zero. -/
theorem Block.combine_closing : combine closing (first.joined 0) = 0 := by
  have htop : combine taps (first.joined 31) = first.joined 0 := by
    have hset : bit 0x9908b0df 31 = 1 := by decide
    rw [first.joined_top, first.combine_taps_bits 31, first.joined_of_le (Nat.le_refl 32), hset,
      one_smul, zero_add]
  have hladder := first.combine_ladder 31 (Nat.le_refl 31)
  calc combine closing (first.joined 0)
      = combine taps (combine (X ^ 31) (first.joined 31)) - combine (X ^ 31) (first.joined 0) := by
        rw [closing, combine_sub, combine_mul, hladder]
    _ = combine (X ^ 31) (combine taps (first.joined 31)) - combine (X ^ 31) (first.joined 0) := by
        rw [← combine_mul, mul_comm, combine_mul]
    _ = 0 := by
        rw [htop, sub_self]

/-- The polynomial that takes all bits of the words to zero. -/
noncomputable def annihilator : (ZMod 2)[X] :=
  X ^ 32 * closing

/-- Every bit of the words is taken to zero. -/
theorem Block.combine_annihilator {b : Nat} (h : b < 32) :
    combine annihilator (first.bits b) = 0 := by
  have hreach : ∃ p, combine (X ^ 32) (first.bits b) = combine p (first.joined 0) := by
    by_cases htop : b < 31
    · refine ⟨X ^ (31 - b) * ladder b, ?_⟩
      have hpow : (X ^ 32 : (ZMod 2)[X]) = X ^ (31 - b) * X ^ b * X := by
        rw [← pow_add, ← pow_succ]
        congr 1
        omega
      rw [hpow, combine_mul, ← first.joined_of_lt htop, combine_mul,
        first.combine_ladder b (by omega), ← combine_mul]
    · refine ⟨X * ladder 31, ?_⟩
      have hb : b = 31 := by omega
      have hpow : (X ^ 32 : (ZMod 2)[X]) = X * X ^ 31 := pow_succ' X 31
      rw [hb, ← first.joined_top, hpow, combine_mul, first.combine_ladder 31 (Nat.le_refl 31),
        ← combine_mul]
  obtain ⟨p, hp⟩ := hreach
  rw [annihilator, mul_comm, combine_mul, hp, ← combine_mul, mul_comm, combine_mul,
    first.combine_closing, map_zero]

/-- The coefficients of the annihilating polynomial sum to one. -/
theorem eval_annihilator : annihilator.eval 1 = 1 := by
  rw [annihilator, closing, eval_mul, eval_sub, eval_mul, eval_taps, eval_pow, eval_pow, eval_X,
    one_pow, one_pow, zero_mul, zero_sub, one_mul]
  rfl

/-- The degrees of the ladder. -/
theorem natDegree_ladder_le (b : Nat) : (ladder b).natDegree ≤ 624 * b := by
  induction b with
  | zero =>
    rw [ladder, natDegree_one]
  | succ b ih =>
    have hup : (taps * ladder b).natDegree ≤ 624 * (b + 1) := by
      have hmul := natDegree_mul_le_of_le natDegree_taps_le ih
      omega
    have hdown : (C (bit 0x9908b0df b) * X ^ (b + 1)).natDegree ≤ 624 * (b + 1) := by
      have hmul := natDegree_C_mul_X_pow_le (bit 0x9908b0df b) (b + 1)
      omega
    rw [ladder]
    exact (natDegree_sub_le _ _).trans (max_le hup hdown)

/-- The degree of the annihilating polynomial. -/
theorem natDegree_annihilator_le : annihilator.natDegree ≤ 20000 := by
  have hup : (taps * ladder 31).natDegree ≤ 19968 :=
    natDegree_mul_le_of_le natDegree_taps_le (natDegree_ladder_le 31)
  have hdown : (X ^ 31 : (ZMod 2)[X]).natDegree ≤ 19968 :=
    (natDegree_X_pow_le 31).trans (by omega)
  have hclosing : closing.natDegree ≤ 19968 :=
    (natDegree_sub_le _ _).trans (max_le hup hdown)
  have hmul := natDegree_mul_le_of_le (natDegree_X_pow_le (R := ZMod 2) 32) hclosing
  exact hmul

/-- Among any 20001 outputs in a row there is one without its top bit. -/
theorem Block.exists_output_lt (k : Nat) :
    ∃ i ≤ 20000, (first.output (k + i)).toNat < 0x80000000 := by
  have hzero : combine annihilator
      (first.bits 31 + first.bits 24 + (first.bits 16 + first.bits 27)) = 0 := by
    simp only [map_add, first.combine_annihilator (show 31 < 32 by decide),
      first.combine_annihilator (show 24 < 32 by decide),
      first.combine_annihilator (show 16 < 32 by decide),
      first.combine_annihilator (show 27 < 32 by decide), add_zero]
  obtain ⟨i, hi, hclear⟩ := exists_clear_of_combine_eq_zero eval_annihilator hzero (k + 624)
  refine ⟨i, hi.trans natDegree_annihilator_le, ?_⟩
  have hplace : k + 624 + i = k + i + 624 := by omega
  have htop : bit (first.output (k + i)) 31 = 0 := by
    rw [hplace] at hclear
    rw [Block.output, bit_temper]
    exact hclear
  have hlt := (first.output (k + i)).toNat_lt
  by_contra hge
  have hset : (first.output (k + i)).toNat.testBit 31 = true := by
    rw [Nat.testBit_eq_decide_div_mod_eq, decide_eq_true_eq]
    omega
  rw [bit, if_pos hset] at htop
  exact one_ne_zero htop

end Fixtures.Twister
