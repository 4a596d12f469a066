import Fixtures.Machine
import Fixtures.Tree.Edit

/-!
# Handles

A handle is an open file with an offset. Reading and writing move the offset, and every write is in
the file at once. A handle holds on to its file, so the file may be removed meanwhile.
-/

namespace Fixtures

/-- An open file, or one that has been closed. -/
structure Handle where
  /-- The file. -/
  file : NodeId
  /-- Where the next byte is read or written. -/
  offset : Nat := 0
  /-- Whether it can still be used. -/
  isOpen : Bool := true
  deriving DecidableEq

namespace Handle

/-- Where an offset is counted from. -/
inductive Whence where
  /-- From the start of the file. -/
  | start
  /-- From the offset of the handle. -/
  | current
  /-- From the end of the file. -/
  | finish
  /-- From the start of the file, at the first data from there on. -/
  | data
  /-- From the start of the file, at the first gap between data from there on. The end counts as
  one. -/
  | gap
  /-- None of these, but a number without a meaning. -/
  | other (number : Int)
  deriving DecidableEq

/-- Why an operation on a handle fails. -/
inductive Failure where
  /-- A closed handle is read from. -/
  | closedForReading
  /-- A closed handle is written to. -/
  | closedForWriting
  /-- A closed handle is moved. -/
  | closedForSeeking
  /-- A closed handle is asked for its offset. -/
  | closedForTelling
  /-- The number of bytes to read makes no sense. -/
  | badLength
  /-- The number of bytes to read is no machine integer. -/
  | lengthTooLarge
  /-- There is no memory for as many bytes as are to be read. -/
  | memory (shortage : Machine.Shortage)
  /-- An offset is no machine integer. -/
  | offsetTooLarge
  /-- A number that says where an offset is counted from is no short machine integer. -/
  | whenceTooLarge
  /-- A number that says where an offset is counted from has no meaning. -/
  | badWhence (number : Int)
  /-- An offset is out of the range of files, or no data lie behind it. -/
  | system (fault : Tree.Fault)
  deriving DecidableEq

/-- The message of a failure. -/
def Failure.message : Failure → String
  | .closedForReading => "read of closed file"
  | .closedForWriting => "write to closed file"
  | .closedForSeeking => "seek of closed file"
  | .closedForTelling => "I/O operation on closed file"
  | .badLength => "read length must be non-negative or -1"
  | .lengthTooLarge => "cannot fit 'int' into an index-sized integer"
  | .memory shortage => shortage.message
  | .offsetTooLarge => "cannot fit 'int' into an offset-sized integer"
  | .whenceTooLarge => "Python int too large to convert to C int"
  | .badWhence number => "whence value " ++ toString number ++ " unsupported"
  | .system fault => fault.message

/-- The content of a handle's file. -/
def content (h : Handle) (t : Tree) : Sparse :=
  (t.content? h.file).getD .empty

/-- Reads up to a number of bytes, or all that are left with -1. The number is checked before the
handle, and there has to be room for as many bytes even if fewer are left. -/
def read [Machine] (h : Handle) (t : Tree) (count : Int) :
    Except Failure (List UInt8 × Handle) := do
  if ¬ Machine.Holds count then throw .lengthTooLarge
  if count < -1 then throw .badLength
  if !h.isOpen then throw .closedForReading
  let rest := (h.content t).drop h.offset
  let wanted := if count = -1 then rest.length else count.toNat
  (Machine.reserveBytes wanted).mapError .memory
  let bytes := (rest.take wanted).toList
  .ok (bytes, { h with offset := h.offset + bytes.length })

/-- The largest offset in a file, which is also its largest size. -/
def offsetLimit : Nat := 0xffffffff000

/-- Writes bytes, of which only those are written for which the file has room; says how many. -/
def write (h : Handle) (t : Tree) (bytes : List UInt8) : Except Failure (Tree × Handle × Nat) :=
  if !h.isOpen then .error .closedForWriting
  else
    let written := bytes.take (offsetLimit - h.offset)
    if written.isEmpty && !bytes.isEmpty then .error (.system .fileTooLarge)
    else .ok (t.write h.file h.offset written,
      { h with offset := h.offset + written.length }, written.length)

/-- The offset at a distance from another one. -/
def offsetAt (base : Nat) (distance : Int) : Except Failure Nat :=
  let offset := base + distance
  if 0 ≤ offset ∧ offset ≤ offsetLimit then .ok offset.toNat
  else .error (.system .invalidArgument)

/-- Moves a handle; the new offset may lie behind the end of the file. What the distance is counted
from is looked at first, then whether the handle is open, and then the distance. -/
def seek (h : Handle) (t : Tree) (distance : Int) (whence : Whence) : Except Failure Handle := do
  if let .other number := whence then
    throw (if Machine.HoldsShort number then .badWhence number else .whenceTooLarge)
  if !h.isOpen then throw .closedForSeeking
  if ¬ Machine.Holds distance then throw .offsetTooLarge
  let content := h.content t
  let offset ← match whence with
    | .start => offsetAt 0 distance
    | .current => offsetAt h.offset distance
    | .finish => offsetAt content.length distance
    | .data | .gap | .other _ =>
      if distance < 0 ∨ content.length ≤ distance then .error (.system .noData)
      else if whence = .gap then .ok (content.gapFrom distance.toNat)
      else match content.dataFrom? distance.toNat with
        | some offset => .ok offset
        | none => .error (.system .noData)
  .ok { h with offset := offset }

/-- The offset of a handle. -/
def tell (h : Handle) : Except Failure Nat :=
  if h.isOpen then .ok h.offset else .error .closedForTelling

/-- The handle after it has been closed. -/
def close (h : Handle) : Handle :=
  { h with isOpen := false }

end Handle

end Fixtures
