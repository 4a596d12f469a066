/-!
# Sparse byte strings

A file that is written far behind its end holds zeros in between which nobody has written. A sparse
byte string keeps such a gap by its length alone, so that it takes no room. It stands for the byte
string `toList`, and its length, its beginnings, its ends and its changes are those of that one.
-/

namespace Fixtures

/-- A piece of a sparse byte string. -/
inductive Sparse.Piece where
  /-- Zeros that have not been written. -/
  | gap (length : Nat)
  /-- Bytes that have been written. -/
  | written (bytes : List UInt8)

/-- A byte string with gaps. -/
structure Sparse where
  /-- The pieces, from the first byte on. -/
  pieces : List Sparse.Piece

namespace Sparse

namespace Piece

/-- The bytes that a piece stands for. -/
def toList : Piece → List UInt8
  | .gap length => List.replicate length 0
  | .written bytes => bytes

/-- The number of bytes of a piece. -/
def length : Piece → Nat
  | .gap length => length
  | .written bytes => bytes.length

/-- The first bytes of a piece. -/
def take (count : Nat) : Piece → Piece
  | .gap length => .gap (min count length)
  | .written bytes => .written (bytes.take count)

/-- A piece without its first bytes. -/
def drop (count : Nat) : Piece → Piece
  | .gap length => .gap (length - count)
  | .written bytes => .written (bytes.drop count)

@[simp] theorem length_toList (p : Piece) : p.toList.length = p.length := by
  cases p <;> simp [toList, length]

@[simp] theorem toList_take (count : Nat) (p : Piece) :
    (p.take count).toList = p.toList.take count := by
  cases p <;> simp [toList, take]

@[simp] theorem toList_drop (count : Nat) (p : Piece) :
    (p.drop count).toList = p.toList.drop count := by
  cases p <;> simp [toList, drop]

/-- The number of bytes of pieces. -/
def lengthAll : List Piece → Nat
  | [] => 0
  | p :: rest => p.length + lengthAll rest

/-- The first bytes of pieces. -/
def takeAll (count : Nat) : List Piece → List Piece
  | [] => []
  | p :: rest =>
    if count ≤ p.length then [p.take count] else p :: takeAll (count - p.length) rest

/-- Pieces without the first bytes. -/
def dropAll (count : Nat) : List Piece → List Piece
  | [] => []
  | p :: rest =>
    if p.length ≤ count then dropAll (count - p.length) rest else p.drop count :: rest

/-- The stretches of written bytes in pieces, the first of which starts at an offset: where each
stretch starts and where it ends. -/
def stretchesFrom (start : Nat) : List Piece → List (Nat × Nat)
  | [] => []
  | .gap length :: rest => stretchesFrom (start + length) rest
  | .written bytes :: rest =>
    let stop := start + bytes.length
    if start = stop then stretchesFrom start rest else (start, stop) :: stretchesFrom stop rest

end Piece

/-- The byte string that a sparse one stands for. -/
def toList (c : Sparse) : List UInt8 :=
  c.pieces.flatMap Piece.toList

/-- The empty byte string. -/
def empty : Sparse := ⟨[]⟩

/-- The number of bytes. -/
def length (c : Sparse) : Nat :=
  Piece.lengthAll c.pieces

/-- The first bytes. -/
def take (count : Nat) (c : Sparse) : Sparse :=
  ⟨Piece.takeAll count c.pieces⟩

/-- What is left without the first bytes. -/
def drop (count : Nat) (c : Sparse) : Sparse :=
  ⟨Piece.dropAll count c.pieces⟩

/-- The byte string after bytes have been written from an offset on. Behind the end a gap comes
first; without bytes nothing happens. -/
def overwrite (c : Sparse) (offset : Nat) (bytes : List UInt8) : Sparse :=
  if bytes.isEmpty then c
  else ⟨(c.take offset).pieces ++
    .gap (offset - c.length) :: .written bytes :: (c.drop (offset + bytes.length)).pieces⟩

/-- The number of bytes of a block. Bytes are kept in whole blocks. -/
def blockSize : Nat := 4096

/-- The stretches of blocks that hold written bytes: where each starts and where it ends. -/
def blocks (c : Sparse) : List (Nat × Nat) :=
  (Piece.stretchesFrom 0 c.pieces).map fun (start, stop) =>
    (start / blockSize * blockSize, (stop + blockSize - 1) / blockSize * blockSize)

/-- The first offset in a block that holds written bytes, from an offset on. -/
def dataFrom? (c : Sparse) (offset : Nat) : Option Nat :=
  (c.blocks.find? fun (_, stop) => offset < stop).map fun (start, _) => max offset start

/-- The first offset in no such block, from an offset on. The end counts as one. -/
def gapFrom (c : Sparse) (offset : Nat) : Nat :=
  min c.length <| c.blocks.foldl
    (fun offset (start, stop) => if start ≤ offset ∧ offset < stop then stop else offset) offset

@[simp] theorem toList_empty : empty.toList = [] := rfl

@[simp] theorem length_toList (c : Sparse) : c.toList.length = c.length := by
  obtain ⟨pieces⟩ := c
  simp only [toList, length]
  induction pieces with
  | nil => rfl
  | cons p rest ih => simp [Piece.lengthAll, ih]

@[simp] theorem toList_take (count : Nat) (c : Sparse) :
    (c.take count).toList = c.toList.take count := by
  obtain ⟨pieces⟩ := c
  simp only [take, toList]
  induction pieces generalizing count with
  | nil => simp [Piece.takeAll]
  | cons p rest ih =>
    by_cases h : count ≤ p.length
    · simp [Piece.takeAll, h, List.take_append_of_le_length]
    · have hp : p.toList.take count = p.toList := List.take_of_length_le (by simp; omega)
      simp [Piece.takeAll, h, ih, List.take_append, hp]

@[simp] theorem toList_drop (count : Nat) (c : Sparse) :
    (c.drop count).toList = c.toList.drop count := by
  obtain ⟨pieces⟩ := c
  simp only [drop, toList]
  induction pieces generalizing count with
  | nil => simp [Piece.dropAll]
  | cons p rest ih =>
    by_cases h : p.length ≤ count
    · have hp : p.toList.drop count = [] := List.drop_eq_nil_of_le (by simpa using h)
      simp [Piece.dropAll, h, ih, List.drop_append, hp]
    · have hc : count - p.length = 0 := by omega
      simp [Piece.dropAll, h, List.drop_append, hc]

/-- Writing bytes keeps what lies before and behind them. -/
theorem toList_overwrite (c : Sparse) (offset : Nat) {bytes : List UInt8} (h : bytes ≠ []) :
    (c.overwrite offset bytes).toList =
      c.toList.take offset ++ List.replicate (offset - c.length) 0 ++ bytes
        ++ c.toList.drop (offset + bytes.length) := by
  have htake := toList_take offset c
  have hdrop := toList_drop (offset + bytes.length) c
  simp only [toList] at htake hdrop
  simp [overwrite, h, toList, htake, hdrop, Piece.toList]

end Sparse

end Fixtures
