import Fixtures.Text.Hex
import Mathlib.Data.List.Basic

/-!
# Digits that were written are read back

The two digits of a byte are read as the byte, so a text of the digits of bytes is read as these
bytes. Every byte string can be written in this way.
-/

namespace Fixtures.Text

/-- A digit has its value, is no gap, and is an ASCII character. -/
theorem hexValue?_hexDigit :
    ∀ n < 16, hexValue? (hexDigit n) = some n ∧ isGap (hexDigit n) = false ∧
      (hexDigit n).toNat < 0x80 := by
  decide

/-- A byte has two digits. -/
theorem hexDigits_two (b : UInt8) :
    hexDigits 2 b.toNat = [hexDigit (b.toNat / 16), hexDigit (b.toNat % 16)] := by
  have hhigh : b.toNat / 16 % 16 = b.toNat / 16 := by
    have hlt := b.toNat_lt
    omega
  simp only [hexDigits, List.nil_append, List.cons_append, hhigh]

/-- The digits of a byte are read as the byte. -/
theorem readHexFrom_hexDigits (place : Nat) (bytes : List UInt8) (b : UInt8) (rest : List Char) :
    readHexFrom place none bytes (hexDigits 2 b.toNat ++ rest) =
      readHexFrom (place + 2) none (b :: bytes) rest := by
  have hlt := b.toNat_lt
  obtain ⟨hhigh, hgap, _⟩ := hexValue?_hexDigit (b.toNat / 16) (by omega)
  obtain ⟨hlow, _, _⟩ := hexValue?_hexDigit (b.toNat % 16) (by omega)
  have hvalue : UInt8.ofNat (16 * (b.toNat / 16) + b.toNat % 16) = b := by
    rw [Nat.div_add_mod, UInt8.ofNat_toNat]
  rw [hexDigits_two]
  simp [readHexFrom, hhigh, hgap, hlow, hvalue]

/-- The digits of bytes are read as the bytes. -/
theorem readHexFrom_hexOfBytes (place : Nat) (before bytes : List UInt8) :
    readHexFrom place none before (hexOfBytes bytes) = .ok (before.reverse ++ bytes) := by
  induction bytes generalizing place before with
  | nil => simp [hexOfBytes, readHexFrom]
  | cons b rest ih =>
    have hcons : hexOfBytes (b :: rest) = hexDigits 2 b.toNat ++ hexOfBytes rest := rfl
    rw [hcons, readHexFrom_hexDigits, ih]
    simp

/-- **Digits of bytes.** The text of the digits of bytes is read as the bytes. -/
theorem bytesOfHex_hexOfBytes (bytes : List UInt8) : bytesOfHex (hexOfBytes bytes) = .ok bytes := by
  have hascii : (hexOfBytes bytes).findIdx? (fun c => 0x80 ≤ c.toNat) = none := by
    rw [List.findIdx?_eq_none_iff]
    intro c hc
    obtain ⟨b, _, hdigit⟩ := List.mem_flatMap.mp hc
    have hlt := b.toNat_lt
    rw [hexDigits_two, List.mem_cons, List.mem_singleton] at hdigit
    rcases hdigit with rfl | rfl
    · have hdigit := (hexValue?_hexDigit (b.toNat / 16) (by omega)).2.2
      simpa using hdigit
    · have hdigit := (hexValue?_hexDigit (b.toNat % 16) (by omega)).2.2
      simpa using hdigit
  unfold bytesOfHex
  rw [hascii]
  exact readHexFrom_hexOfBytes 0 [] bytes

end Fixtures.Text
