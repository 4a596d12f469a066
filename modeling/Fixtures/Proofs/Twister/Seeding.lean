import Fixtures.Proofs.Twister.Recurrence
import Mathlib

/-!
# The first block of a key

A block that a key fills is swept in turns: round the places from 1 to 623, every word is made from
the word before it, which has just been made itself, and from what stood in its place. Word by word
a sweep of one round is therefore a recursion on the turns, which needs no block. So is the growing
of a single word, and the two sweeps of a key that is no longer than the block give its first block
in closed form.
-/

namespace Fixtures.Twister

/-- The words that a single word grows into. -/
def grown (seed : UInt32) : Nat → UInt32
  | 0 => seed
  | place + 1 => successor (grown seed place) (place + 1)

/-- The first words grow from left to right. -/
theorem Block.getElem_grow_take (seed : UInt32) (count : Nat) (hcount : count ≤ 623) :
    ∀ place, (hplace : place ≤ count) →
      (((List.finRange 623).take count).foldl
        (fun (block : Block) i => block.set (i.val + 1) (successor block[i.val] (i.val + 1)))
        (Vector.replicate 624 seed))[place] = grown seed place := by
  induction count with
  | zero =>
    intro place hplace
    obtain rfl := Nat.le_zero.mp hplace
    exact Vector.getElem_replicate _
  | succ count ih =>
    intro place hplace
    have hlt : count < (List.finRange 623).length := by
      rw [List.length_finRange]
      omega
    have hsmaller := ih (by omega)
    have hval : ((List.finRange 623)[count]).val = count := by simp
    rw [List.take_add_one, List.getElem?_eq_getElem hlt, List.foldl_append]
    simp only [Option.toList_some, List.foldl_cons, List.foldl_nil, hval]
    rw [Vector.getElem_set]
    split
    · rename_i heq
      rw [hsmaller count (Nat.le_refl count), ← heq]
      rfl
    · exact hsmaller place (by omega)

/-- A block that a word grows into holds the words it grows into. -/
theorem Block.getElem_grow (seed : UInt32) {place : Nat} (hplace : place < 624) :
    (Block.grow seed)[place] = grown seed place := by
  have hall := Block.getElem_grow_take seed 623 (Nat.le_refl 623) place (by omega)
  rw [List.take_of_length_le (Nat.le_of_eq List.length_finRange)] at hall
  exact hall

section Sweep

variable (mix : Nat → UInt32 → UInt32 → UInt32)

/-- Replaces the words at some places in turn, from the word before them and themselves. -/
def Block.sweep (start turns : Nat) (block : Block) : Block :=
  (List.range turns).foldl
    (fun block turn => block.mixAt (turningPlace (start + turn)) (mix turn)) block

/-- The words that a sweep makes, where `words` are those that stood in their places and `before` is
the one in front of the first place. -/
def swept (words : Nat → UInt32) (before : UInt32) : Nat → UInt32
  | 0 => before
  | turn + 1 => mix turn (fold (swept words before turn)) (words turn)

/-- One more turn replaces one more word. -/
theorem Block.sweep_succ (start turns : Nat) (block : Block) :
    block.sweep mix start (turns + 1) =
      (block.sweep mix start turns).mixAt (turningPlace (start + turns)) (mix turns) := by
  unfold Block.sweep
  rw [List.range_succ, List.foldl_append, List.foldl_cons, List.foldl_nil]

variable {mix}

/-- The turns never come to the first place. -/
theorem turningPlace_ne_zero (turn : Nat) : turningPlace turn ≠ 0 := by
  intro h
  have hval : 1 + turn % 623 = 0 := congrArg Fin.val h
  omega

/-- Turns less than a round apart are at different places. -/
theorem turningPlace_ne {turn other : Nat} (hlt : turn < other) (hround : other < turn + 623) :
    turningPlace turn ≠ turningPlace other := by
  intro h
  have hval : 1 + turn % 623 = 1 + other % 623 := congrArg Fin.val h
  omega

variable (block : Block) (f : UInt32 → UInt32 → UInt32)

/-- The word that is made in a turn is at its place. -/
theorem Block.getElem_mixAt_self (turn : Nat) :
    (block.mixAt (turningPlace turn) f)[turningPlace turn] =
      f (fold block[turningPlace turn - 1]) block[turningPlace turn] := by
  have hne : (0 : Nat) ≠ (turningPlace turn).val := fun h =>
    turningPlace_ne_zero turn (Fin.ext h.symm)
  simp only [Block.mixAt, Fin.getElem_fin]
  split
  · rw [Vector.getElem_set_ne _ _ hne, Vector.getElem_set_self]
  · rw [Vector.getElem_set_self]

/-- The words of the other turns stay. -/
theorem Block.getElem_mixAt_of_ne {turn other : Nat} (h : turningPlace other ≠ turningPlace turn) :
    (block.mixAt (turningPlace turn) f)[turningPlace other] = block[turningPlace other] := by
  have hne : (turningPlace turn).val ≠ (turningPlace other).val := fun heq => h (Fin.ext heq.symm)
  have hne' : (0 : Nat) ≠ (turningPlace other).val := fun heq =>
    turningPlace_ne_zero other (Fin.ext heq.symm)
  simp only [Block.mixAt, Fin.getElem_fin]
  split
  · rw [Vector.getElem_set_ne _ _ hne', Vector.getElem_set_ne _ _ hne]
  · rw [Vector.getElem_set_ne _ _ hne]

/-- The last word of a round is also put first. -/
theorem Block.getElem_mixAt_zero {i : Fin 624} (hi : i.val = 623) :
    (block.mixAt i f)[(0 : Fin 624)] = f (fold block[i - 1]) block[i] := by
  obtain rfl : i = 623 := Fin.ext hi
  simp only [Block.mixAt, Fin.getElem_fin]
  exact (Vector.getElem_set_self _).trans (Vector.getElem_set_self _)

/-- The word in front of the next turn's place is the one made in this turn, also where the turns go
round. -/
theorem Block.getElem_mixAt_before (turn : Nat) :
    (block.mixAt (turningPlace turn) f)[turningPlace (turn + 1) - 1] =
      f (fold block[turningPlace turn - 1]) block[turningPlace turn] := by
  have hval : (turningPlace (turn + 1) - 1).val = (turn + 1) % 623 := by
    rw [Fin.val_sub]
    simp only [turningPlace, Fin.val_one]
    omega
  by_cases hlast : turn % 623 = 622
  · have hplace : turningPlace (turn + 1) - 1 = 0 := Fin.ext (by rw [hval, Fin.val_zero]; omega)
    simp only [hplace]
    refine Block.getElem_mixAt_zero block f ?_
    show 1 + turn % 623 = 623
    omega
  · have hplace : turningPlace (turn + 1) - 1 = turningPlace turn := by
      apply Fin.ext
      rw [hval]
      show (turn + 1) % 623 = 1 + turn % 623
      omega
    simp only [hplace]
    exact Block.getElem_mixAt_self block f turn

/-- What a sweep has come to within its first round: the words that it has made, the ones that it
has not yet reached, and the word in front of its next place. -/
structure Block.Swept (mix : Nat → UInt32 → UInt32 → UInt32) (start : Nat)
    (words : Nat → UInt32) (before : UInt32) (turns : Nat) (block : Block) : Prop where
  /-- The word before the next place is the last one that was made. -/
  last : block[turningPlace (start + turns) - 1] = swept mix words before turns
  /-- The places behind hold the words that were made. -/
  made : ∀ turn < turns, block[turningPlace (start + turn)] = swept mix words before (turn + 1)
  /-- The places ahead hold the words that were there. -/
  ahead : ∀ turn, turns ≤ turn → turn < 623 → block[turningPlace (start + turn)] = words turn

/-- A sweep has begun. -/
theorem Block.swept_zero {block : Block} {start : Nat} {words : Nat → UInt32} {before : UInt32}
    (hbefore : block[turningPlace start - 1] = before)
    (hwords : ∀ turn < 623, block[turningPlace (start + turn)] = words turn) :
    block.Swept mix start words before 0 where
  last := hbefore
  made := fun turn hturn => absurd hturn (Nat.not_lt_zero turn)
  ahead := fun turn _ hturn => hwords turn hturn

/-- One more turn. -/
theorem Block.Swept.succ {block : Block} {start turns : Nat} {words : Nat → UInt32}
    {before : UInt32} (h : block.Swept mix start words before turns) (hturns : turns < 623) :
    (block.mixAt (turningPlace (start + turns)) (mix turns)).Swept mix start words before
      (turns + 1) := by
  have hword : mix turns (fold block[turningPlace (start + turns) - 1])
      block[turningPlace (start + turns)] = swept mix words before (turns + 1) := by
    rw [h.last, h.ahead turns (Nat.le_refl turns) hturns]
    rfl
  constructor
  · exact (Block.getElem_mixAt_before _ _ (start + turns)).trans hword
  · intro turn hturn
    by_cases hnow : turn = turns
    · rw [hnow, Block.getElem_mixAt_self, hword]
    · have hne : turningPlace (start + turn) ≠ turningPlace (start + turns) :=
        turningPlace_ne (by omega) (by omega)
      rw [Block.getElem_mixAt_of_ne _ _ hne]
      exact h.made turn (by omega)
  · intro turn hahead hround
    have hne : turningPlace (start + turns) ≠ turningPlace (start + turn) :=
      turningPlace_ne (by omega) (by omega)
    rw [Block.getElem_mixAt_of_ne _ _ hne.symm]
    exact h.ahead turn (by omega) hround

/-- A sweep of at most one round. -/
theorem Block.Swept.sweep {block : Block} {start : Nat} {words : Nat → UInt32} {before : UInt32}
    (h : block.Swept mix start words before 0) {turns : Nat} (hturns : turns ≤ 623) :
    (block.sweep mix start turns).Swept mix start words before turns := by
  induction turns with
  | zero => exact h
  | succ turns ih =>
    rw [Block.sweep_succ]
    exact (ih (by omega)).succ hturns

end Sweep

/-- What a turn of a key makes of a word. -/
def mixKey (key : List UInt32) (turn : Nat) (before word : UInt32) : UInt32 :=
  (word ^^^ (before * 1664525)) + key.getD (turn % key.length) 0 +
    UInt32.ofNat (turn % key.length)

/-- What a turn behind a key makes of a word. -/
def mixPlace (start turn : Nat) (before word : UInt32) : UInt32 :=
  (word ^^^ (before * 1566083941)) - UInt32.ofNat (turningPlace (start + turn)).val

/-- A key is absorbed by a sweep from the second word on. -/
theorem Block.absorb_eq_sweep (key : List UInt32) (turns : Nat) (block : Block) :
    block.absorb key turns = block.sweep (mixKey key) 0 turns := by
  unfold Block.absorb Block.sweep
  simp only [Nat.zero_add]
  rfl

/-- The places are taken off in a sweep of one round. -/
theorem Block.settle_eq_sweep (start : Nat) (block : Block) :
    block.settle start = block.sweep (mixPlace start) start 623 :=
  rfl

/-- The words of the first round of a key. -/
def absorbed (key : List UInt32) : Nat → UInt32 :=
  swept (mixKey key) (fun turn => grown 19650218 (turn + 1)) 19650218

/-- The word that a key makes of the second word when it has come round. -/
def absorbedLast (key : List UInt32) : UInt32 :=
  mixKey key 623 (fold (absorbed key 623)) (absorbed key 1)

/-- The words of the round behind a key. -/
def settled (key : List UInt32) : Nat → UInt32 :=
  swept (mixPlace 624)
    (fun turn => if turn = 622 then absorbedLast key else absorbed key (turn + 2))
    (absorbedLast key)

/-- A word of the first block of a key: the first one is set, the second one comes last. -/
def firstWord (key : List UInt32) : Nat → UInt32
  | 0 => 0x80000000
  | 1 => settled key 623
  | place + 2 => settled key (place + 1)

/-- A key of at most 624 words has been absorbed after a round and one more turn. -/
theorem Block.swept_absorb (key : List UInt32) :
    ((Block.grow 19650218).absorb key 624).Swept (mixPlace 624) 624
      (fun turn => if turn = 622 then absorbedLast key else absorbed key (turn + 2))
      (absorbedLast key) 0 := by
  have hstart : (Block.grow 19650218).Swept (mixKey key) 0
      (fun turn => grown 19650218 (turn + 1)) 19650218 0 := by
    apply Block.swept_zero
    · exact Block.getElem_grow 19650218 (by omega)
    · intro turn hturn
      have hval : (turningPlace (0 + turn)).val = turn + 1 := by
        show 1 + (0 + turn) % 623 = turn + 1
        omega
      rw [Fin.getElem_fin]
      simp only [hval]
      exact Block.getElem_grow 19650218 (by omega)
  have hround := hstart.sweep (Nat.le_refl 623)
  rw [Block.absorb_eq_sweep, Block.sweep_succ]
  generalize (Block.grow 19650218).sweep (mixKey key) 0 623 = block at hround
  have hsecond : block[turningPlace (0 + 623)] = absorbed key 1 := hround.made 0 (by omega)
  have hlast : block[turningPlace (0 + 623) - 1] = absorbed key 623 := hround.last
  have hword : mixKey key 623 (fold block[turningPlace (0 + 623) - 1])
      block[turningPlace (0 + 623)] = absorbedLast key := by
    rw [hlast, hsecond]
    rfl
  apply Block.swept_zero
  · exact (Block.getElem_mixAt_before _ _ 623).trans hword
  · intro turn hturn
    by_cases hwhole : turn = 622
    · rw [hwhole, if_pos rfl]
      exact (Block.getElem_mixAt_self _ _ 623).trans hword
    · rw [if_neg hwhole]
      have hne : turningPlace (0 + 623) ≠ turningPlace (624 + turn) :=
        turningPlace_ne (by omega) (by omega)
      have hplace : turningPlace (624 + turn) = turningPlace (0 + (turn + 1)) := by
        apply Fin.ext
        show 1 + (624 + turn) % 623 = 1 + (0 + (turn + 1)) % 623
        omega
      rw [Block.getElem_mixAt_of_ne _ _ hne.symm]
      simp only [hplace]
      exact hround.made (turn + 1) (by omega)

/-- After the round behind a key only the first word is still to be set. -/
theorem Block.Swept.getElem_set {key : List UInt32} {block : Block}
    (h : block.Swept (mixPlace 624) 624
      (fun turn => if turn = 622 then absorbedLast key else absorbed key (turn + 2))
      (absorbedLast key) 623) {place : Nat} (hplace : place < 624) :
    (block.set 0 0x80000000)[place] = firstWord key place := by
  cases place with
  | zero => exact Vector.getElem_set_self _
  | succ place =>
    rw [Vector.getElem_set_ne _ _ (Nat.succ_ne_zero place).symm]
    cases place with
    | zero => exact h.made 622 (by omega)
    | succ place =>
      have hval : (turningPlace (624 + place)).val = place + 2 := by
        show 1 + (624 + place) % 623 = place + 2
        omega
      have hmade := h.made place (by omega)
      rw [Fin.getElem_fin] at hmade
      simp only [hval] at hmade
      exact hmade

/-- **The first block of a key** of at most 624 words, word by word. -/
theorem Block.word_ofKey {key : List UInt32} (hkey : key.length ≤ 624) {place : Nat}
    (hplace : place < 624) : (Block.ofKey key).word place = firstWord key place := by
  have hturns : max 624 key.length = 624 := Nat.max_eq_left hkey
  have hround := (Block.swept_absorb key).sweep (Nat.le_refl 623)
  rw [← Block.settle_eq_sweep] at hround
  rw [Block.word_of_lt _ hplace]
  simp only [Block.ofKey, hturns]
  exact hround.getElem_set hplace

end Fixtures.Twister
