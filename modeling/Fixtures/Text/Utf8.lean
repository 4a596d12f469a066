import Fixtures.Text.Hex

/-!
# UTF-8

Characters as one to four bytes, and back. Reading stops at the first bytes that begin no
character: the fault gives their place, the bytes themselves, which are the longest beginning of a
character that is there and at least one byte, and the reason.
-/

namespace Fixtures.Text.Utf8

/-- The bytes of characters. -/
def encode (cs : List Char) : List UInt8 :=
  cs.flatMap String.utf8EncodeChar

/-- The characters whose bytes fit into a number of bytes. The replacement character stands for one
that is cut in two. -/
def clip : (room : Nat) → List Char → List Char
  | _, [] => []
  | room, c :: cs =>
    if c.utf8Size ≤ room then c :: clip (room - c.utf8Size) cs
    else if room = 0 then [] else ['\ufffd']

/-- Why bytes are no character. -/
inductive Reason where
  /-- The first byte begins no character. -/
  | invalidStart
  /-- The bytes end within a character. -/
  | unexpectedEnd
  /-- The byte behind them does not continue the character. -/
  | invalidContinuation
  deriving DecidableEq

/-- The text of a reason. -/
def Reason.text : Reason → String
  | .invalidStart => "invalid start byte"
  | .unexpectedEnd => "unexpected end of data"
  | .invalidContinuation => "invalid continuation byte"

/-- Bytes that are no character. -/
structure Fault where
  /-- How many bytes lie before them. -/
  start : Nat
  /-- The bytes. -/
  bytes : List UInt8
  /-- Why they are no character. -/
  reason : Reason
  deriving DecidableEq

/-- The message of a fault. A single byte is named, and of several bytes the first and the last
place. -/
def Fault.message (fault : Fault) : String :=
  let place := match fault.bytes with
    | [b] => "byte 0x" ++ String.ofList (hexDigits 2 b.toNat) ++ " in position "
        ++ toString fault.start
    | bytes => "bytes in position " ++ toString fault.start ++ "-"
        ++ toString (fault.start + bytes.length - 1)
  "'utf-8' codec can't decode " ++ place ++ ": " ++ fault.reason.text

/-- A range of bytes, by its first and its last. -/
abbrev ByteRange := UInt8 × UInt8

/-- The bytes that continue a character unless its first byte narrows them down. -/
def anyTail : ByteRange := (0x80, 0xbf)

/-- The payload of a first byte, and the ranges of the bytes that have to follow. The narrower
ranges leave out what fewer bytes can say, the surrogates, and what lies behind the last code
point. -/
def lead (b : UInt8) : Option (Nat × List ByteRange) :=
  if b < 0x80 then some (b.toNat, [])
  else if b < 0xc2 then none
  else if b < 0xe0 then some (b.toNat - 0xc0, [anyTail])
  else if b = 0xe0 then some (0, [(0xa0, 0xbf), anyTail])
  else if b = 0xed then some (0xd, [(0x80, 0x9f), anyTail])
  else if b < 0xf0 then some (b.toNat - 0xe0, [anyTail, anyTail])
  else if b = 0xf0 then some (0, [(0x90, 0xbf), anyTail, anyTail])
  else if b < 0xf4 then some (b.toNat - 0xf0, [anyTail, anyTail, anyTail])
  else if b = 0xf4 then some (4, [(0x80, 0x8f), anyTail, anyTail])
  else none

/-- A character that has begun. -/
structure Begun where
  /-- The ranges of the bytes still to come; none of them are while no character has begun. -/
  ranges : List ByteRange := []
  /-- The payload so far. -/
  code : Nat := 0
  /-- The bytes so far, the last one first. -/
  bytes : List UInt8 := []

/-- The fault of a character that has begun and does not go on, before a number of bytes. -/
def Begun.fault (begun : Begun) (position : Nat) (reason : Reason) : Fault :=
  ⟨position - begun.bytes.length, begun.bytes.reverse, reason⟩

/-- Reads characters, one of which may have begun, from bytes at a position. -/
def decodeFrom (position : Nat) (begun : Begun) : List UInt8 → Except Fault (List Char)
  | [] => if begun.bytes.isEmpty then .ok [] else .error (begun.fault position .unexpectedEnd)
  | b :: rest =>
    match begun.ranges with
    | [] =>
      match lead b with
      | none => .error ⟨position, [b], .invalidStart⟩
      | some (code, []) => (decodeFrom (position + 1) {} rest).map (Char.ofNat code :: ·)
      | some (code, ranges) => decodeFrom (position + 1) ⟨ranges, code, [b]⟩ rest
    | (first, last) :: ranges =>
      if first ≤ b ∧ b ≤ last then
        let code := begun.code * 64 + b.toNat % 64
        if ranges.isEmpty then (decodeFrom (position + 1) {} rest).map (Char.ofNat code :: ·)
        else decodeFrom (position + 1) ⟨ranges, code, b :: begun.bytes⟩ rest
      else .error (begun.fault position .invalidContinuation)

/-- The characters of bytes. -/
def decode (bytes : List UInt8) : Except Fault (List Char) :=
  decodeFrom 0 {} bytes

end Fixtures.Text.Utf8
