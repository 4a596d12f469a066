/-!
# Blocks of the twisted recurrence

A twister is a linear recurrence on words of 32 bits: a word is made from the one that lies 624
places before it, from that word's successor, and from the word 227 places before. The words are
held in blocks of 624, and a block is renewed in place, from its first word to its last, so that
the later places already read words of the new block. A key fills the first block.
-/

namespace Fixtures.Twister

/-- The words of one stretch of the recurrence. -/
abbrev Block := Vector UInt32 624

/-- The top bit of one word and the other bits of its successor, moved down by one bit, with the
constant of the recurrence added where the bit that falls out is set. -/
def twist (upper lower : UInt32) : UInt32 :=
  let mixed := (upper &&& 0x80000000) ||| (lower &&& 0x7fffffff)
  (mixed >>> 1) ^^^ (if mixed &&& 1 = 1 then 0x9908b0df else 0)

/-- Replaces one word by the word that lies 624 places further on. Places wrap around, which
reads words of the new block where they have been renewed. -/
def Block.renew (block : Block) (i : Fin 624) : Block :=
  block.set i (block[i + 397] ^^^ twist block[i] block[i + 1])

/-- The next 624 words. -/
def Block.next (block : Block) : Block :=
  (List.finRange 624).foldl Block.renew block

/-- What is seen of a word: four invertible steps spread its bits. -/
def temper (word : UInt32) : UInt32 :=
  let word := word ^^^ (word >>> 11)
  let word := word ^^^ ((word <<< 7) &&& 0x9d2c5680)
  let word := word ^^^ ((word <<< 15) &&& 0xefc60000)
  word ^^^ (word >>> 18)

/-- A word with its two highest bits added to its two lowest. -/
def fold (word : UInt32) : UInt32 :=
  word ^^^ (word >>> 30)

/-- The word that follows a word at a place of a growing block: a multiple of the folded word, plus
its own place. -/
def successor (word : UInt32) (place : Nat) : UInt32 :=
  1812433253 * fold word + UInt32.ofNat place

/-- The block that a single word grows into. -/
def Block.grow (seed : UInt32) : Block :=
  (List.finRange 623).foldl
    (fun (block : Block) i => block.set (i.val + 1) (successor block[i.val] (i.val + 1)))
    (Vector.replicate 624 seed)

/-- The place that a pass of the key reaches after `turn` steps: the places from 1 to 623 in turn,
over and over. -/
def turningPlace (turn : Nat) : Fin 624 :=
  ⟨1 + turn % 623, by omega⟩

/-- Replaces the word at a place by one made from the folded word before it and the word itself.
The last word of the block is also put first, where the next round starts from it. -/
def Block.mixAt (block : Block) (i : Fin 624) (mix : UInt32 → UInt32 → UInt32) : Block :=
  let mixed := block.set i (mix (fold block[i - 1]) block[i])
  if i.val = 623 then mixed.set 0 mixed[623] else mixed

/-- Adds the words of a key, one at each place in turn, and starts over at the end of the key. -/
def Block.absorb (key : List UInt32) (turns : Nat) (block : Block) : Block :=
  (List.range turns).foldl
    (fun block turn =>
      let j := turn % key.length
      block.mixAt (turningPlace turn) fun before word =>
        (word ^^^ (before * 1664525)) + key.getD j 0 + UInt32.ofNat j)
    block

/-- Takes each place off in turn, one place short of a whole round. -/
def Block.settle (start : Nat) (block : Block) : Block :=
  (List.range 623).foldl
    (fun block turn =>
      let i := turningPlace (start + turn)
      block.mixAt i fun before word => (word ^^^ (before * 1566083941)) - UInt32.ofNat i.val)
    block

/-- The first block for a key. Its first word is set apart from the key, so that no key leads to
a block of zeros. -/
def Block.ofKey (key : List UInt32) : Block :=
  let turns := max 624 key.length
  (((Block.grow 19650218).absorb key turns).settle turns).set 0 0x80000000

end Fixtures.Twister
