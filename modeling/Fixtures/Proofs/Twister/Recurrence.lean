import Fixtures.Twister.Draw
import Mathlib

/-!
# The recurrence behind a generator

A generator keeps 624 words and renews them in place, so the last words of a block are made from
words of the same pass. The recurrence itself knows no blocks: every word is made from the words
624, 623, and 227 places before it. Read round from the place that is renewed next, a block always
holds 624 consecutive words of the recurrence, and the outputs of a generator are its words in
turn, tempered.
-/

namespace Fixtures.Twister

/-- The words of the recurrence, which begin with those of a block. -/
def Block.word (first : Block) (k : Nat) : UInt32 :=
  if h : k < 624 then first[k]
  else
    first.word (k - 624 + 397) ^^^ twist (first.word (k - 624)) (first.word (k - 624 + 1))

/-- The words behind the first block, tempered. -/
def Block.output (first : Block) (k : Nat) : UInt32 :=
  temper (first.word (k + 624))

/-- The first words are those of the block. -/
theorem Block.word_of_lt (first : Block) {k : Nat} (h : k < 624) : first.word k = first[k] := by
  rw [Block.word, dif_pos h]

/-- Every later word is made from three words before it. -/
theorem Block.word_add (first : Block) (k : Nat) :
    first.word (k + 624) =
      first.word (k + 397) ^^^ twist (first.word k) (first.word (k + 1)) := by
  have h : ¬ k + 624 < 624 := by omega
  rw [Block.word, dif_neg h, Nat.add_sub_cancel]

/-- Read round from a place, a block holds the words of the recurrence from the `n`-th on. -/
def Block.Shows (block : Block) (place : Fin 624) (first : Block) (n : Nat) : Prop :=
  ∀ d : Fin 624, block[place + d] = first.word (n + d)

/-- The word at a place of a block, where the place is as far round as a word is on. -/
theorem Block.Shows.getElem {block first : Block} {place i d : Fin 624} {n : Nat}
    (h : block.Shows place first n) (hi : i = place + d) : block[i] = first.word (n + d) := by
  subst hi
  exact h d

/-- A block shows its own words, from its first place on. -/
theorem Block.shows_self (block : Block) : block.Shows 0 block 0 := by
  intro d
  rw [Nat.zero_add, Block.word_of_lt block d.isLt, Fin.getElem_fin]
  simp only [Fin.zero_add]

/-- Renewing the word at a place moves the view on by one word: what is written is the word that
comes into view at the far end. -/
theorem Block.Shows.renew {block first : Block} {place : Fin 624} {n : Nat}
    (h : block.Shows place first n) : (block.renew place).Shows (place + 1) first (n + 1) := by
  intro d
  by_cases hd : place = place + 1 + d
  · -- The far end of the view is the place that has just been written.
    have hplace : block[place] = first.word n :=
      h.getElem (by rw [Fin.add_zero])
    have hwritten : (block.renew place)[place] =
        block[place + 397] ^^^ twist block[place] block[place + 1] :=
      Vector.getElem_set_self _
    have hnew : (block.renew place)[place] = first.word (n + 624) := by
      rw [hwritten, hplace, h 397, h 1, Block.word_add]
      rfl
    have hval : d.val = 623 := by
      have hround := congrArg Fin.val hd
      simp only [Fin.val_add, Fin.val_one] at hround
      omega
    simp only [← hd]
    rw [hnew, hval]
  · have hkept : (block.renew place)[place + 1 + d] = block[place + 1 + d] :=
      Vector.getElem_set_ne _ _ fun hval => hd (Fin.ext hval)
    have hval : (d + 1).val = d.val + 1 := by
      have hround : place.val ≠ (place + 1 + d).val := fun h => hd (Fin.ext h)
      simp only [Fin.val_add, Fin.val_one] at hround ⊢
      omega
    have hplace : place + 1 + d = place + (d + 1) := by
      apply Fin.ext
      simp only [Fin.val_add, Fin.val_one]
      omega
    rw [hkept, h.getElem hplace, hval]
    rw [show n + (d.val + 1) = n + 1 + d.val by omega]

/-- Renewing the words at the first places, in turn, moves the view on by as many words. -/
theorem Block.Shows.renew_take {block first : Block} {n : Nat} (h : block.Shows 0 first n) :
    ∀ count ≤ 624, (((List.finRange 624).take count).foldl Block.renew block).Shows
      (Fin.ofNat 624 count) first (n + count) := by
  intro count
  induction count with
  | zero =>
    intro _
    exact h
  | succ count ih =>
    intro hcount
    have hlt : count < (List.finRange 624).length := by
      rw [List.length_finRange]
      omega
    have hplace : (List.finRange 624)[count] = Fin.ofNat 624 count := by
      rw [List.getElem_finRange]
      apply Fin.ext
      simp only [Fin.val_cast, Fin.val_ofNat]
      omega
    have hsucc : Fin.ofNat 624 (count + 1) = Fin.ofNat 624 count + 1 := by
      apply Fin.ext
      simp only [Fin.val_ofNat, Fin.val_add, Fin.val_one]
      omega
    rw [← List.take_append_getElem hlt, List.foldl_append, hplace, hsucc]
    exact (ih (by omega)).renew

/-- The next block shows the next 624 words. -/
theorem Block.Shows.next {block first : Block} {n : Nat} (h : block.Shows 0 first n) :
    block.next.Shows 0 first (n + 624) := by
  have hall := h.renew_take 624 (Nat.le_refl 624)
  rw [List.take_of_length_le (Nat.le_of_eq List.length_finRange)] at hall
  exact hall

/-- The word at a place of a block that is shown from its first place on. -/
theorem Block.Shows.getElem_nat {block first : Block} {n place : Nat}
    (h : block.Shows 0 first n) (hplace : place < 624) : block[place] = first.word (n + place) :=
  h.getElem (i := ⟨place, hplace⟩) (d := ⟨place, hplace⟩) (Fin.zero_add _).symm

/-- The next output of a generator is the `k`-th output of the recurrence: the block shows some
stretch of words, and the words up to the `k`-th behind the first block have been given out. -/
structure Generator.Stands (g : Generator) (first : Block) (k : Nat) : Prop where
  /-- No more words have been given out than the block has. -/
  used_le : g.used ≤ 624
  /-- The block shows words, and the next one of them is tempered next. -/
  shows : ∃ n, g.block.Shows 0 first n ∧ n + g.used = k + 624

/-- A generator for a key starts with the first output behind the block that the key fills. -/
theorem Generator.stands_ofKey (key : List UInt32) :
    (Generator.ofKey key).Stands (Block.ofKey key) 0 :=
  ⟨Nat.le_refl 624, 0, Block.shows_self _, rfl⟩

/-- A generator gives out the outputs of the recurrence in turn, also where it renews its block. -/
theorem Generator.Stands.next {g : Generator} {first : Block} {k : Nat} (h : g.Stands first k) :
    ∃ g', g.next = (first.output k, g') ∧ g'.Stands first (k + 1) := by
  obtain ⟨hused, n, hshows, hk⟩ := h
  unfold Generator.next
  by_cases hlt : g.used < 624
  · rw [dif_pos hlt, hshows.getElem_nat hlt, hk]
    refine ⟨{ g with used := g.used + 1 }, rfl, hlt, n, hshows, ?_⟩
    show n + (g.used + 1) = k + 1 + 624
    omega
  · rw [dif_neg hlt]
    have hnext := hshows.next
    generalize g.block.next = block at hnext
    have hfirst : block[0] = first.word (k + 624) := by
      rw [hnext.getElem_nat (by omega), show n + 624 + 0 = k + 624 by omega]
    refine ⟨⟨block, 1⟩, ?_, Nat.le_add_left 1 623, n + 624, hnext, ?_⟩
    · simp only [hfirst]
      rfl
    · show n + 624 + 1 = k + 1 + 624
      omega

end Fixtures.Twister
