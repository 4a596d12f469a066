import Fixtures.SeededBytes
import Fixtures.Proofs.Twister.Draws
import Fixtures.Proofs.Twister.Seeding
import Mathlib

/-!
# Seeded bytes are a window on one stream

The seed fixes the first 624 words of a recurrence and so all of them. Tempered, the later words are
one endless sequence of outputs, and the top bytes of these outputs, without every 255, are one
endless sequence of bytes. However many seeded bytes are asked for, they are the first ones of it.
None of them is left out, none comes twice, and there is always another one.
-/

namespace Fixtures.SeededBytes

/-- The words of the recurrence that begins with the words of the seed. -/
def word (k : Nat) : UInt32 :=
  if k < 624 then Twister.firstWord [42] k
  else word (k - 624 + 397) ^^^ Twister.twist (word (k - 624)) (word (k - 624 + 1))

/-- The outputs: the words behind the first 624, tempered. -/
def output (k : Nat) : UInt32 :=
  Twister.temper (word (k + 624))

/-- The top byte of an output. -/
def topByte (k : Nat) : UInt8 :=
  (output k >>> 24).toUInt8

/-- An output is kept whose top byte is not 255. -/
def IsKept (k : Nat) : Prop :=
  topByte k ≠ 255

instance : DecidablePred IsKept := fun k =>
  inferInstanceAs (Decidable (topByte k ≠ 255))

/-- The place of a kept output among all outputs, counted among the kept ones. -/
noncomputable def keptPlace (i : Nat) : Nat :=
  Nat.nth IsKept i

/-- The top bytes of the kept outputs, one after the other. -/
noncomputable def stream (i : Nat) : UInt8 :=
  topByte (keptPlace i)

/-- A number of bytes of the stream, from a place on. -/
noncomputable def window (start count : Nat) : List UInt8 :=
  (List.range count).map fun i => stream (start + i)

/-- The first words are those of the seed. -/
theorem word_of_lt {k : Nat} (h : k < 624) : word k = Twister.firstWord [42] k := by
  rw [word, if_pos h]

/-- Every later word is made from three words before it. -/
theorem word_add (k : Nat) :
    word (k + 624) = word (k + 397) ^^^ Twister.twist (word k) (word (k + 1)) := by
  rw [word, if_neg (by omega), Nat.add_sub_cancel]

/-- The words are those of the block that the seed fills. -/
theorem word_eq (k : Nat) : word k = (Twister.Block.ofKey [42]).word k := by
  induction k using Nat.strong_induction_on with
  | _ k ih =>
    by_cases h : k < 624
    · rw [word_of_lt h, Twister.Block.word_ofKey (by decide) h]
    · obtain ⟨j, rfl⟩ := Nat.exists_eq_add_of_le' (Nat.le_of_not_lt h)
      rw [word_add, Twister.Block.word_add, ih (j + 397) (by omega), ih j (by omega),
        ih (j + 1) (by omega)]

/-- The outputs are those behind the block that the seed fills. -/
theorem output_eq (k : Nat) : output k = (Twister.Block.ofKey [42]).output k := by
  rw [output, word_eq, Twister.Block.output]

/-- A window begins with the byte at its place. -/
theorem window_succ (start count : Nat) :
    window start (count + 1) = stream start :: window (start + 1) count := by
  rw [window, window, List.range_succ_eq_map, List.map_cons, List.map_map, Nat.add_zero]
  congr 1
  refine List.map_congr_left ?_
  intro i _
  show stream (start + (i + 1)) = stream (start + 1 + i)
  congr 1
  omega

/-- A top byte is the number that eight bits are drawn as. -/
theorem toNat_topByte (k : Nat) :
    (topByte k).toNat = (Twister.Block.ofKey [42]).topBits 8 k := by
  have hlt := (output k).toNat_lt
  have hshift : (output k >>> 24).toNat = (output k).toNat / 2 ^ 24 := by
    rw [UInt32.toNat_shiftRight]
    exact Nat.shiftRight_eq_div_pow _ 24
  rw [topByte, UInt32.toNat_toUInt8, hshift, Nat.mod_eq_of_lt (by omega), output_eq]
  rfl

/-- The drawn number, made into a byte, is the top byte. -/
theorem ofNat_topBits (k : Nat) :
    UInt8.ofNat ((Twister.Block.ofKey [42]).topBits 8 k) = topByte k := by
  rw [← toNat_topByte, UInt8.ofNat_toNat]

/-- The outputs that a draw accepts are the kept ones. -/
theorem isKept_iff (k : Nat) :
    IsKept k ↔ (Twister.Block.ofKey [42]).topBits 8 k < Settings.byteUpperBound := by
  have hlt := (topByte k).toNat_lt
  have h255 : topByte k = 255 ↔ (topByte k).toNat = 255 := UInt8.toNat_inj.symm
  rw [IsKept, ← toNat_topByte, Ne, h255, Settings.byteUpperBound]
  omega

/-- Kept outputs never end. -/
theorem infinite_isKept : (Set.ofPred IsKept).Infinite := by
  refine Set.infinite_of_forall_exists_gt ?_
  intro k
  obtain ⟨i, _, hlt⟩ := (Twister.Block.ofKey [42]).exists_topBits_lt
    (show 0 < Settings.byteUpperBound by decide) (by decide) (k + 1)
  exact ⟨k + 1 + i, (isKept_iff (k + 1 + i)).mpr hlt, by omega⟩

/-- Passing over outputs that are not kept leaves the number of kept ones as it is. -/
theorem count_isKept_of_refused {k count : Nat} (hrefused : ∀ i < count, ¬ IsKept (k + i)) :
    Nat.count IsKept (k + count) = Nat.count IsKept k := by
  rw [Nat.count_add, Nat.count_iff_forall_not.mpr hrefused, Nat.add_zero]

/-- From a generator that stands before an output, the draws are the next bytes of the stream: the
kept outputs before it have been drawn already. -/
theorem draw_of_stands (count : Nat) :
    ∀ (drawn : List UInt8) {g : Twister.Generator} {k : Nat},
      g.Stands (Twister.Block.ofKey [42]) k →
      draw count drawn g = some (drawn.reverse ++ window (Nat.count IsKept k) count) := by
  induction count with
  | zero =>
    intro drawn g k _
    rw [draw, window, List.range_zero, List.map_nil, List.append_nil]
  | succ count ih =>
    intro drawn g k h
    obtain ⟨skipped, g', hrefused, haccepted, hbelow, hstands⟩ :=
      h.below (show 0 < Settings.byteUpperBound by decide) (by decide)
    have hwidth : Nat.log2 Settings.byteUpperBound + 1 = 8 := by decide
    rw [hwidth] at hrefused haccepted hbelow
    have hkept : IsKept (k + skipped) := (isKept_iff _).mpr haccepted
    have hnone : ∀ i < skipped, ¬ IsKept (k + i) := by
      intro i hi hkept
      have hlt := (isKept_iff _).mp hkept
      have hle := hrefused i hi
      omega
    have hcount : Nat.count IsKept (k + skipped) = Nat.count IsKept k :=
      count_isKept_of_refused hnone
    have hnext : Nat.count IsKept (k + skipped + 1) = Nat.count IsKept k + 1 := by
      rw [Nat.count_succ, if_pos hkept, hcount]
    have hbyte : stream (Nat.count IsKept k) = topByte (k + skipped) := by
      rw [stream, keptPlace, ← hcount, Nat.nth_count hkept]
    have hrest := ih (topByte (k + skipped) :: drawn) hstands
    calc draw (count + 1) drawn g = draw count (topByte (k + skipped) :: drawn) g' := by
          rw [draw, hbelow, ← ofNat_topBits]
      _ = some (drawn.reverse ++ window (Nat.count IsKept k) (count + 1)) := by
          rw [hrest, hnext, window_succ, hbyte, List.reverse_cons, List.append_assoc]
          rfl

/-- The first seeded bytes are the first bytes of the stream. -/
theorem first_eq (count : Nat) : first count = some (window 0 count) := by
  have hdraw := draw_of_stands count [] (Twister.Generator.stands_ofKey [42])
  rw [Nat.count_zero, List.reverse_nil, List.nil_append] at hdraw
  exact hdraw

/-- A number of bytes that is not below zero is always given, as the first bytes of the stream. -/
theorem ofValue_int (n : Nat) : ofValue (.int n) = .ok (window 0 n) := by
  have hcount : count (.int n) = .ok n := by
    have hpos : ¬ (n : Int) < 0 := by omega
    simp only [count, Value.asInteger?, if_neg hpos, Int.toNat_natCast]
  simp only [ofValue, hcount, first_eq, bind, Except.bind]

end Fixtures.SeededBytes
