import Fixtures.Text.Utf8

/-!
# UTF-8 is read as it is written

The bytes of characters are read as these characters. The first byte of a character says how many
bytes follow and gives the payload above theirs, and the narrower ranges for the second byte leave
out no character.
-/

namespace Fixtures.Text.Utf8

/-! ## First bytes -/

/-- The first byte of a character of one byte is its code. -/
theorem lead_one : ∀ n : Fin 0x80, lead (UInt8.ofNat n) = some (n.val, []) := by
  decide

/-- The first byte of a character of two bytes gives the payload above one more byte. -/
theorem lead_two : ∀ n : Fin 0x20, 2 ≤ n.val →
    lead (UInt8.ofNat (n + 0xc0)) = some (n.val, [anyTail]) := by
  decide

/-- The first byte of a character of three bytes gives the payload above two more bytes. Where the
payload is lowest, or leads to the surrogates, the second byte is narrowed down. -/
theorem lead_three : ∀ n : Fin 0x10, lead (UInt8.ofNat (n + 0xe0)) =
    some (n.val,
      [(if n.val = 0 then 0xa0 else 0x80, if n.val = 0xd then 0x9f else 0xbf), anyTail]) := by
  decide

/-- The first byte of a character of four bytes gives the payload above three more bytes. Where the
payload is lowest or highest, the second byte is narrowed down. -/
theorem lead_four : ∀ n : Fin 5, lead (UInt8.ofNat (n + 0xf0)) =
    some (n.val,
      [(if n.val = 0 then 0x90 else 0x80, if n.val = 4 then 0x8f else 0xbf), anyTail, anyTail]) := by
  decide

/-! ## The bytes that follow -/

section Follow

variable {position code payload : Nat} {b : UInt8} {first last : UInt8} {ranges : List ByteRange}
  {bytes rest : List UInt8}

/-- A first byte begins a character of more bytes. -/
theorem decodeFrom_lead (h : lead b = some (code, ranges)) (hmore : ranges ≠ []) :
    decodeFrom position {} (b :: rest) = decodeFrom (position + 1) ⟨ranges, code, [b]⟩ rest := by
  obtain ⟨range, more, rfl⟩ := List.exists_cons_of_ne_nil hmore
  rw [decodeFrom]
  simp only [h]

variable (hpayload : payload < 0x40) (hfirst : first.toNat ≤ payload + 0x80)
  (hlast : payload + 0x80 ≤ last.toNat)

include hpayload

/-- A byte that continues a character is its payload above the bit that marks it. -/
theorem toNat_continuation : (UInt8.ofNat (payload + 0x80)).toNat = payload + 0x80 := by
  rw [UInt8.toNat_ofNat']
  omega

include hfirst hlast

/-- A byte that continues a character lies in its range. -/
theorem mem_range_continuation :
    first ≤ UInt8.ofNat (payload + 0x80) ∧ UInt8.ofNat (payload + 0x80) ≤ last := by
  rw [UInt8.le_iff_toNat_le, UInt8.le_iff_toNat_le, toNat_continuation hpayload]
  exact ⟨hfirst, hlast⟩

/-- A byte that continues a character adds its payload. -/
theorem decodeFrom_continue (hmore : ranges ≠ []) :
    decodeFrom position ⟨(first, last) :: ranges, code, bytes⟩
        (UInt8.ofNat (payload + 0x80) :: rest) =
      decodeFrom (position + 1)
        ⟨ranges, code * 64 + payload, UInt8.ofNat (payload + 0x80) :: bytes⟩ rest := by
  have hlow : (payload + 0x80) % 64 = payload := by omega
  rw [decodeFrom]
  simp only [if_pos (mem_range_continuation hpayload hfirst hlast), toNat_continuation hpayload,
    hlow, List.isEmpty_iff, if_neg hmore]

/-- The last byte of a character completes it. -/
theorem decodeFrom_complete :
    decodeFrom position ⟨[(first, last)], code, bytes⟩ (UInt8.ofNat (payload + 0x80) :: rest) =
      (decodeFrom (position + 1) {} rest).map (Char.ofNat (code * 64 + payload) :: ·) := by
  have hlow : (payload + 0x80) % 64 = payload := by omega
  rw [decodeFrom]
  simp only [if_pos (mem_range_continuation hpayload hfirst hlast), toNat_continuation hpayload,
    hlow, List.isEmpty_nil, if_true]

end Follow

/-! ## Characters -/

section Character

variable (position : Nat) (rest : List UInt8) {code : Nat}

/-- A character of one byte is read. -/
theorem decodeFrom_one (h : code < 0x80) :
    decodeFrom position {} (UInt8.ofNat code :: rest) =
      (decodeFrom (position + 1) {} rest).map (Char.ofNat code :: ·) := by
  have hlead : lead (UInt8.ofNat code) = some (code, []) := lead_one ⟨code, h⟩
  rw [decodeFrom]
  simp only [hlead]

/-- A character of two bytes is read. -/
theorem decodeFrom_two (hlow : 0x80 ≤ code) (hhigh : code < 0x800) :
    decodeFrom position {} (UInt8.ofNat (code / 64 + 0xc0) :: UInt8.ofNat (code % 64 + 0x80) ::
        rest) =
      (decodeFrom (position + 2) {} rest).map (Char.ofNat code :: ·) := by
  have hlead : lead (UInt8.ofNat (code / 64 + 0xc0)) = some (code / 64, [anyTail]) :=
    lead_two ⟨code / 64, by omega⟩ (show 2 ≤ code / 64 by omega)
  have hcode : code / 64 * 64 + code % 64 = code := by omega
  rw [decodeFrom_lead hlead (List.cons_ne_nil _ _),
    decodeFrom_complete (by omega) (show 0x80 ≤ code % 64 + 0x80 by omega)
      (show code % 64 + 0x80 ≤ 0xbf by omega), hcode]

/-- A character of three bytes is read, unless it would be a surrogate. -/
theorem decodeFrom_three (hlow : 0x800 ≤ code) (hhigh : code < 0x10000)
    (hsurrogate : code < 0xd800 ∨ 0xdfff < code) :
    decodeFrom position {} (UInt8.ofNat (code / 4096 + 0xe0) ::
        UInt8.ofNat (code / 64 % 64 + 0x80) :: UInt8.ofNat (code % 64 + 0x80) :: rest) =
      (decodeFrom (position + 3) {} rest).map (Char.ofNat code :: ·) := by
  have hlead : lead (UInt8.ofNat (code / 4096 + 0xe0)) = some (code / 4096,
      [(if code / 4096 = 0 then 0xa0 else 0x80, if code / 4096 = 0xd then 0x9f else 0xbf),
        anyTail]) := lead_three ⟨code / 4096, by omega⟩
  have hcode : (code / 4096 * 64 + code / 64 % 64) * 64 + code % 64 = code := by omega
  rw [decodeFrom_lead hlead (List.cons_ne_nil _ _),
    decodeFrom_continue (by omega) ?least ?greatest (List.cons_ne_nil _ _),
    decodeFrom_complete (by omega) (show 0x80 ≤ code % 64 + 0x80 by omega)
      (show code % 64 + 0x80 ≤ 0xbf by omega), hcode]
  case least =>
    split
    · show 0xa0 ≤ code / 64 % 64 + 0x80
      omega
    · exact Nat.le_add_left _ _
  case greatest =>
    split
    · show code / 64 % 64 + 0x80 ≤ 0x9f
      omega
    · show code / 64 % 64 + 0x80 ≤ 0xbf
      omega

/-- A character of four bytes is read. -/
theorem decodeFrom_four (hlow : 0x10000 ≤ code) (hhigh : code < 0x110000) :
    decodeFrom position {} (UInt8.ofNat (code / 262144 + 0xf0) ::
        UInt8.ofNat (code / 4096 % 64 + 0x80) :: UInt8.ofNat (code / 64 % 64 + 0x80) ::
        UInt8.ofNat (code % 64 + 0x80) :: rest) =
      (decodeFrom (position + 4) {} rest).map (Char.ofNat code :: ·) := by
  have hlead : lead (UInt8.ofNat (code / 262144 + 0xf0)) = some (code / 262144,
      [(if code / 262144 = 0 then 0x90 else 0x80, if code / 262144 = 4 then 0x8f else 0xbf),
        anyTail, anyTail]) := lead_four ⟨code / 262144, by omega⟩
  have hcode : ((code / 262144 * 64 + code / 4096 % 64) * 64 + code / 64 % 64) * 64 + code % 64 =
      code := by omega
  rw [decodeFrom_lead hlead (List.cons_ne_nil _ _),
    decodeFrom_continue (by omega) ?least ?greatest (List.cons_ne_nil _ _),
    decodeFrom_continue (by omega) (show 0x80 ≤ code / 64 % 64 + 0x80 by omega)
      (show code / 64 % 64 + 0x80 ≤ 0xbf by omega) (List.cons_ne_nil _ _),
    decodeFrom_complete (by omega) (show 0x80 ≤ code % 64 + 0x80 by omega)
      (show code % 64 + 0x80 ≤ 0xbf by omega), hcode]
  case least =>
    split
    · show 0x90 ≤ code / 4096 % 64 + 0x80
      omega
    · exact Nat.le_add_left _ _
  case greatest =>
    split
    · show code / 4096 % 64 + 0x80 ≤ 0x8f
      omega
    · show code / 4096 % 64 + 0x80 ≤ 0xbf
      omega

/-- The bytes of a character are read as the character. -/
theorem decodeFrom_char (c : Char) :
    decodeFrom position {} (String.utf8EncodeChar c ++ rest) =
      (decodeFrom (position + (String.utf8EncodeChar c).length) {} rest).map (c :: ·) := by
  have hvalid : c.val.toNat < 0xd800 ∨ 0xdfff < c.val.toNat ∧ c.val.toNat < 0x110000 := c.valid
  have hchar : Char.ofNat c.val.toNat = c := Char.ofNat_toNat c
  unfold String.utf8EncodeChar
  generalize c.val.toNat = code at *
  dsimp only
  split
  · rw [← hchar]
    exact decodeFrom_one position rest (by omega)
  · split
    · rw [show code / 64 % 32 + 192 = code / 64 + 0xc0 by omega, ← hchar]
      exact decodeFrom_two position rest (by omega) (by omega)
    · split
      · rw [show code / 4096 % 16 + 224 = code / 4096 + 0xe0 by omega, ← hchar]
        exact decodeFrom_three position rest (by omega) (by omega) (by omega)
      · rw [show code / 262144 % 8 + 240 = code / 262144 + 0xf0 by omega, ← hchar]
        exact decodeFrom_four position rest (by omega) (by omega)

end Character

/-- **The bytes of characters are read as these characters.** -/
theorem decode_encode (cs : List Char) : decode (encode cs) = .ok cs := by
  have hfrom (position : Nat) : decodeFrom position {} (encode cs) = .ok cs := by
    induction cs generalizing position with
    | nil => rfl
    | cons c rest ih =>
      rw [encode, List.flatMap_cons, decodeFrom_char, ← encode, ih]
      rfl
  exact hfrom 0

end Fixtures.Text.Utf8
