import Fixtures.Twister.Generator

/-!
# Draws

What can be drawn from a generator: bits, a fraction, bytes, a number below a bound, a member of a
range or of a list, and a shuffled list. A number below a bound is drawn as many bits as the bound
has, again and again until it lies below the bound. A draw that can never end so is the value
`none`: a generator has finitely many states, so it is enough to try as often as there are states.
-/

namespace Fixtures.Twister.Generator

/-- The highest `width` bits of the next output, for a width up to 32. -/
def topBits (width : Nat) (g : Generator) : Nat × Generator :=
  let (word, g) := g.next
  (word.toNat / Nat.pow 2 (32 - width), g)

/-- A number of outputs in front of `words`, the last one first. -/
def nextWords : (count : Nat) → (words : List UInt32) → Generator → List UInt32 × Generator
  | 0, words, g => (words, g)
  | count + 1, words, g =>
    let (word, g) := g.next
    nextWords count (word :: words) g

/-- The outputs that a number of `width` random bits is made of: whole ones, the most significant
and last one first, below the highest bits of one more. A number has at least one bit. -/
def digits (width : Nat) (g : Generator) : List UInt32 × Nat × Generator :=
  let (words, g) := g.nextWords ((width - 1) / 32) []
  let (top, g) := g.topBits ((width - 1) % 32 + 1)
  (words, top, g)

/-- A number of `width` random bits. No bits need no output. -/
def bits (width : Nat) (g : Generator) : Nat × Generator :=
  if width = 0 then (0, g)
  else
    let (words, top, g) := g.digits width
    (words.foldl (fun n word => n * 0x100000000 + word.toNat) top, g)

/-- A fraction of one, as the number of its units of two to the power -53: 27 bits of one output
and 26 of the next. -/
def fraction (g : Generator) : Nat × Generator :=
  let (high, g) := g.topBits 27
  let (low, g) := g.topBits 26
  (high * 0x4000000 + low, g)

/-- The bytes of a number, the least significant first. -/
def littleEndian : (length n : Nat) → List UInt8
  | 0, _ => []
  | length + 1, n => UInt8.ofNat (n % 256) :: littleEndian length (n / 256)

/-- Random bytes: those of one number with as many bits, the least significant first. -/
def bytes (length : Nat) (g : Generator) : List UInt8 × Generator :=
  if length = 0 then ([], g)
  else
    let (words, top, g) := g.digits (8 * length)
    (words.reverse.flatMap (fun word => littleEndian 4 word.toNat)
      ++ littleEndian ((length - 1) % 4 + 1) top, g)

/-- At least the number of states that a generator can be in: all its words and its place. The
number is too large to be counted down from. -/
@[irreducible]
def stateBound : Nat := 625 * Nat.pow 2 (32 * 624)

/-- Draws `width` bits until they are a number below the bound, at most a given number of times. -/
def redraw (bound width : Nat) : (attempts : Nat) → Generator → Option (Nat × Generator)
  | 0, _ => none
  | attempts + 1, g =>
    let (n, g) := g.bits width
    if n < bound then some (n, g) else redraw bound width attempts g

/-- A number below a positive bound, from as many bits as the bound has. -/
def below (bound : Nat) (g : Generator) : Option (Nat × Generator) :=
  redraw bound (Nat.log2 bound + 1) stateBound g

/-- A member of a list at a random place. -/
def pick {α : Type} (items : List α) (g : Generator) : Option (α × Generator) :=
  match g.below items.length with
  | none => none
  | some (place, g) => items[place]?.map fun item => (item, g)

/-- Shuffles the first members of a list: from the last of them down, each changes places with
one that is not behind it. -/
def shuffleFrom {α : Type} : (last : Nat) → Array α → Generator → Option (Array α × Generator)
  | 0, items, g => some (items, g)
  | last + 1, items, g =>
    match g.below (last + 2) with
    | none => none
    | some (place, g) => shuffleFrom last (items.swapIfInBounds (last + 1) place) g

/-- A list in a random order. -/
def shuffle {α : Type} (items : List α) (g : Generator) : Option (List α × Generator) :=
  (shuffleFrom (items.length - 1) items.toArray g).map fun (items, g) => (items.toList, g)

end Fixtures.Twister.Generator
