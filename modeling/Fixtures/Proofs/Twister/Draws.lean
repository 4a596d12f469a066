import Fixtures.Proofs.Twister.Combination
import Mathlib

/-!
# Draws along the recurrence

A draw of at most 32 bits takes one output. A number below a bound is the first of such draws that
lies below it, and the draw after it starts right behind. Where the bound has at most 32 bits, an
output without its top bit is always accepted, so the search ends long before a generator could
have been in every state.
-/

namespace Fixtures.Twister

/-- The number that the highest bits of an output are. -/
def Block.topBits (first : Block) (width k : Nat) : Nat :=
  (first.output k).toNat / 2 ^ (32 - width)

/-- A draw of at most one output's bits takes them from the top of one output. -/
theorem Generator.Stands.bits {g : Generator} {first : Block} {k width : Nat}
    (h : g.Stands first k) (hpos : 0 < width) (hwidth : width ≤ 32) :
    ∃ g', g.bits width = (first.topBits width k, g') ∧ g'.Stands first (k + 1) := by
  obtain ⟨g', hnext, hstands⟩ := h.next
  refine ⟨g', ?_, hstands⟩
  have hwhole : (width - 1) / 32 = 0 := by omega
  have hpart : (width - 1) % 32 + 1 = width := by omega
  have hsome : width ≠ 0 := by omega
  simp only [Generator.bits, if_neg hsome, Generator.digits, hwhole, hpart, Generator.nextWords,
    Generator.topBits, hnext, List.foldl_nil]
  rfl

/-- Draws that are refused are passed over, as long as attempts are left. -/
theorem Generator.Stands.redraw {first : Block} {bound width : Nat} (hpos : 0 < width)
    (hwidth : width ≤ 32) {count : Nat} :
    ∀ {g : Generator} {k attempts : Nat}, g.Stands first k → count < attempts →
      (∀ i < count, bound ≤ first.topBits width (k + i)) →
      first.topBits width (k + count) < bound →
      ∃ g', g.redraw bound width attempts = some (first.topBits width (k + count), g') ∧
        g'.Stands first (k + count + 1) := by
  induction count with
  | zero =>
    intro g k attempts h hattempts _ haccepted
    obtain ⟨attempts, rfl⟩ := Nat.exists_eq_add_of_lt hattempts
    obtain ⟨g', hbits, hstands⟩ := h.bits hpos hwidth
    refine ⟨g', ?_, hstands⟩
    rw [Nat.zero_add, Generator.redraw, hbits]
    exact if_pos haccepted
  | succ count ih =>
    intro g k attempts h hattempts hrefused haccepted
    obtain ⟨attempts, rfl⟩ : ∃ fewer, attempts = fewer + 1 := ⟨attempts - 1, by omega⟩
    obtain ⟨g', hbits, hstands⟩ := h.bits hpos hwidth
    have hfirst : ¬ first.topBits width k < bound :=
      Nat.not_lt.mpr (hrefused 0 (by omega))
    have hplace (i : Nat) : k + 1 + i = k + (i + 1) := by omega
    have hothers : ∀ i < count, bound ≤ first.topBits width (k + 1 + i) := by
      intro i hi
      have hlater := hrefused (i + 1) (by omega)
      rwa [← hplace] at hlater
    rw [← hplace] at haccepted ⊢
    obtain ⟨g'', hredraw, hlast⟩ := ih hstands (Nat.lt_of_succ_lt_succ hattempts) hothers haccepted
    refine ⟨g'', ?_, hlast⟩
    rw [Generator.redraw, hbits]
    exact (if_neg hfirst).trans hredraw

/-- The states that a generator is given attempts for are more than any window of outputs needs. -/
theorem Generator.lt_stateBound : 20000 < Generator.stateBound := by
  unfold Generator.stateBound
  generalize hexponent : 32 * 624 = exponent
  have hpow : exponent < Nat.pow 2 exponent := Nat.lt_two_pow_self
  omega

variable (first : Block)

/-- From every place on, one of the next outputs has top bits below a bound with as many bits. -/
theorem Block.exists_topBits_lt {bound : Nat} (hpos : 0 < bound) (hbound : bound < 2 ^ 32)
    (k : Nat) : ∃ i ≤ 20000, first.topBits (Nat.log2 bound + 1) (k + i) < bound := by
  obtain ⟨i, hi, hlt⟩ := first.exists_output_lt k
  refine ⟨i, hi, ?_⟩
  have hne : bound ≠ 0 := by omega
  have hlog : Nat.log2 bound < 32 := (Nat.log2_lt hne).mpr hbound
  have hhalf : 2 ^ Nat.log2 bound ≤ bound := Nat.log2_self_le hne
  have hsplit : 2 ^ (32 - (Nat.log2 bound + 1)) * 2 ^ Nat.log2 bound = 0x80000000 := by
    rw [← Nat.pow_add, show 32 - (Nat.log2 bound + 1) + Nat.log2 bound = 31 by omega]
  calc first.topBits (Nat.log2 bound + 1) (k + i) < 2 ^ Nat.log2 bound := by
        refine Nat.div_lt_of_lt_mul ?_
        rw [hsplit]
        exact hlt
    _ ≤ bound := hhalf

/-- A number below a bound of at most 32 bits is always drawn: it is the first one among the
outputs to come that lies below the bound. -/
theorem Generator.Stands.below {g : Generator} {first : Block} {k bound : Nat}
    (h : g.Stands first k) (hpos : 0 < bound) (hbound : bound < 2 ^ 32) :
    ∃ count g', (∀ i < count, bound ≤ first.topBits (Nat.log2 bound + 1) (k + i)) ∧
      first.topBits (Nat.log2 bound + 1) (k + count) < bound ∧
      g.below bound = some (first.topBits (Nat.log2 bound + 1) (k + count), g') ∧
      g'.Stands first (k + count + 1) := by
  obtain ⟨i, hi, haccepted⟩ := first.exists_topBits_lt hpos hbound k
  have hsome : ∃ i, first.topBits (Nat.log2 bound + 1) (k + i) < bound := ⟨i, haccepted⟩
  have hlog : Nat.log2 bound < 32 := (Nat.log2_lt (by omega)).mpr hbound
  have hattempts : Nat.find hsome < Generator.stateBound := by
    have hle : Nat.find hsome ≤ i := Nat.find_min' hsome haccepted
    have hbound := Generator.lt_stateBound
    omega
  have hrefused : ∀ i < Nat.find hsome, bound ≤ first.topBits (Nat.log2 bound + 1) (k + i) := by
    intro i hlt
    exact Nat.not_lt.mp (Nat.find_min hsome hlt)
  have hfound := Nat.find_spec hsome
  obtain ⟨g', hredraw, hstands⟩ :=
    Generator.Stands.redraw (Nat.succ_pos _) hlog h hattempts hrefused hfound
  exact ⟨Nat.find hsome, g', hrefused, hfound, hredraw, hstands⟩

end Fixtures.Twister
