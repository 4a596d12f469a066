import Fixtures.Settings
import Fixtures.Twister.Block

/-!
# Generators

A generator is a block of the recurrence and the number of its words that have been given out.
Each output is the next word, tempered; after the last word the block is renewed.
-/

namespace Fixtures.Twister

/-- A block and how far it has been used. -/
structure Generator where
  /-- The words in use. -/
  block : Block
  /-- How many of them have been given out. -/
  used : Nat

namespace Generator

/-- A generator for a key, which starts with the block after the one the key fills. -/
def ofKey (key : List UInt32) : Generator :=
  ⟨Block.ofKey key, 624⟩

/-- A fresh generator with the fixed seed (`seedable_rng`). -/
def seeded : Generator :=
  ofKey [UInt32.ofNat Settings.seed]

/-- The next output. -/
def next (g : Generator) : UInt32 × Generator :=
  if h : g.used < 624 then
    (temper g.block[g.used], { g with used := g.used + 1 })
  else
    let block := g.block.next
    (temper block[0], ⟨block, 1⟩)

end Generator

end Fixtures.Twister
