import Fixtures.Text.Quoted
import Fixtures.Proofs.Text.Hex
import Mathlib.Algebra.Group.Nat.Defs
import Mathlib.Data.List.Basic

/-!
# Quoted texts are read back

A character between quotes can be read back without knowing what follows it, whichever characters
count as printable: what stands behind a backslash tells how far the character goes. So a quoted
text says where it ends, and two quoted texts that begin one text are the same.
-/

namespace Fixtures.Text

/-- The number that hexadecimal digits are read as. -/
def hexNumber (digits : List Char) : Nat :=
  digits.foldl (fun n c => 16 * n + (hexValue? c).getD 0) 0

/-- Digits of a number are read as its remainder at as many digits. -/
theorem hexNumber_hexDigits (width n : Nat) : hexNumber (hexDigits width n) = n % 16 ^ width := by
  induction width generalizing n with
  | zero => simp [hexDigits, hexNumber, Nat.mod_one]
  | succ width ih =>
    have hlast : hexValue? (hexDigit (n % 16)) = some (n % 16) :=
      (hexValue?_hexDigit (n % 16) (Nat.mod_lt n (by decide))).1
    have hfront := ih (n / 16)
    rw [hexNumber] at hfront
    rw [hexDigits, hexNumber, List.foldl_append, hfront, List.foldl_cons, List.foldl_nil, hlast,
      Option.getD_some, Nat.pow_succ, Nat.mul_comm (16 ^ width) 16, Nat.mod_mul]
    omega

namespace Quoted

/-- The character that a number of hexadecimal digits stand for, and what follows them. -/
def readDigits (width : Nat) (cs : List Char) : Char × List Char :=
  (Char.ofNat (hexNumber (cs.take width)), cs.drop width)

/-- The character that stands first between quotes, and what follows it. -/
def readFirst? : List Char → Option (Char × List Char)
  | '\\' :: 'x' :: rest => some (readDigits 2 rest)
  | '\\' :: 'u' :: rest => some (readDigits 4 rest)
  | '\\' :: 'U' :: rest => some (readDigits 8 rest)
  | '\\' :: 't' :: rest => some ('\t', rest)
  | '\\' :: 'n' :: rest => some ('\n', rest)
  | '\\' :: 'r' :: rest => some ('\r', rest)
  | '\\' :: c :: rest => some (c, rest)
  | c :: rest => some (c, rest)
  | [] => none

/-- The digits of a code point are read as the character. -/
theorem readDigits_hexDigits {width : Nat} {c : Char} (hc : c.toNat < 16 ^ width)
    (rest : List Char) : readDigits width (hexDigits width c.toNat ++ rest) = (c, rest) := by
  have hlength : (hexDigits width c.toNat).length = width := length_hexDigits width c.toNat
  have htake : (hexDigits width c.toNat ++ rest).take width = hexDigits width c.toNat :=
    List.take_left' hlength
  have hdrop : (hexDigits width c.toNat ++ rest).drop width = rest := List.drop_left' hlength
  rw [readDigits, htake, hdrop, hexNumber_hexDigits, Nat.mod_eq_of_lt hc, Char.ofNat_toNat]

/-- A character that is written by its code point is read back. -/
theorem readFirst?_byCodePoint (c : Char) (rest : List Char) :
    readFirst? (byCodePoint c ++ rest) = some (c, rest) := by
  have hbound : c.toNat < 0x110000 := by
    rcases c.valid with h | h
    · exact Nat.lt_trans h (by decide)
    · exact h.2
  simp only [byCodePoint]
  split
  · exact congrArg some (readDigits_hexDigits (by omega) rest)
  · split
    · exact congrArg some (readDigits_hexDigits (by omega) rest)
    · exact congrArg some (readDigits_hexDigits (by omega) rest)

variable {printable : Char → Bool} {quote : Char}

/-- A text stands between single or double quotes. -/
theorem quoteFor_cases (cs : List Char) : quoteFor cs = '\'' ∨ quoteFor cs = '"' := by
  unfold quoteFor
  split
  · exact Or.inr rfl
  · exact Or.inl rfl

/-- A character that is no backslash is read as itself. -/
theorem readFirst?_of_ne {c : Char} (hc : c ≠ '\\') (rest : List Char) :
    readFirst? (c :: rest) = some (c, rest) := by
  unfold readFirst?
  split <;> simp_all

/-- A character between quotes is read back, whichever characters are printable. -/
theorem readFirst?_escape (printable : Char → Bool) (hquote : quote = '\'' ∨ quote = '"')
    (c : Char) (rest : List Char) :
    readFirst? (escape printable quote c ++ rest) = some (c, rest) := by
  unfold escape
  split
  · rename_i hmarked
    rcases hmarked with rfl | rfl
    · rfl
    · rcases hquote with rfl | rfl <;> rfl
  · rename_i hmarked
    have hbackslash : c ≠ '\\' := fun h => hmarked (Or.inl h)
    split
    · subst c
      rfl
    · split
      · subst c
        rfl
      · split
        · subst c
          rfl
        · split
          · exact readFirst?_of_ne hbackslash rest
          · exact readFirst?_byCodePoint c rest

/-- No character between quotes begins with the quote that ends the text. -/
theorem escape_ne_quote (hquote : quote = '\'' ∨ quote = '"') (c : Char)
    (rest after : List Char) : escape printable quote c ++ rest ≠ quote :: after := by
  have hbackslash : quote ≠ '\\' := by
    rcases hquote with rfl | rfl <;> decide
  intro h
  -- What begins with the quote is read as the quote, which is never written as it is.
  have hread := readFirst?_escape printable hquote c rest
  rw [h, readFirst?_of_ne hbackslash] at hread
  obtain ⟨rfl, rfl⟩ : quote = c ∧ after = rest := by simpa using hread
  simp [escape] at h

/-- The characters up to the quote that ends a text are determined, and so is what follows it. -/
theorem flatMap_escape_append_inj (hquote : quote = '\'' ∨ quote = '"')
    {cs ds rest after : List Char} (h : cs.flatMap (escape printable quote) ++ quote :: rest =
      ds.flatMap (escape printable quote) ++ quote :: after) : cs = ds ∧ rest = after := by
  induction cs generalizing ds with
  | nil =>
    cases ds with
    | nil => exact ⟨rfl, (List.cons.inj h).2⟩
    | cons d ds =>
      rw [List.flatMap_cons, List.append_assoc] at h
      exact absurd h.symm (escape_ne_quote hquote d _ rest)
  | cons c cs ih =>
    cases ds with
    | nil =>
      rw [List.flatMap_cons, List.append_assoc] at h
      exact absurd h (escape_ne_quote hquote c _ after)
    | cons d ds =>
      rw [List.flatMap_cons, List.append_assoc, List.flatMap_cons, List.append_assoc] at h
      have hread := readFirst?_escape printable hquote c
        (cs.flatMap (escape printable quote) ++ quote :: rest)
      rw [h, readFirst?_escape printable hquote] at hread
      obtain ⟨rfl, hrest⟩ : d = c ∧ ds.flatMap (escape printable quote) ++ quote :: after =
          cs.flatMap (escape printable quote) ++ quote :: rest := by simpa using hread
      obtain ⟨rfl, hafter⟩ := ih hrest.symm
      exact ⟨rfl, hafter⟩

/-- A quoted text opens with its quote, and ends with it. -/
theorem write_append (printable : Char → Bool) (cs rest : List Char) :
    write printable cs ++ rest = quoteFor cs ::
      (cs.flatMap (escape printable (quoteFor cs)) ++ quoteFor cs :: rest) := by
  simp [write]

/-- **Quoted texts end by themselves.** Where two quoted texts begin one text, they are the same
text, and the same follows. -/
theorem write_append_inj {cs ds rest after : List Char}
    (h : write printable cs ++ rest = write printable ds ++ after) : cs = ds ∧ rest = after := by
  rw [write_append, write_append, List.cons.injEq] at h
  obtain ⟨hquote, hbody⟩ := h
  rw [← hquote] at hbody
  exact flatMap_escape_append_inj (quoteFor_cases cs) hbody

/-- Bytes are determined by the characters that have them as their code points. -/
theorem charsOfBytes_injective : Function.Injective charsOfBytes := by
  apply List.map_injective_iff.mpr
  intro x y hxy
  have hcode (byte : UInt8) : (Char.ofNat byte.toNat).toNat = byte.toNat := by
    have hvalid : byte.toNat.isValidChar := Or.inl (Nat.lt_trans byte.toNat_lt (by decide))
    rw [Char.ofNat, dif_pos hvalid]
    rfl
  apply UInt8.toNat_inj.mp
  rw [← hcode x, ← hcode y]
  exact congrArg Char.toNat hxy

/-- **Quoted bytes end by themselves**, like quoted texts. -/
theorem writeBytes_append_inj {b c : List UInt8} {rest after : List Char}
    (h : writeBytes b ++ rest = writeBytes c ++ after) : b = c ∧ rest = after := by
  obtain ⟨hbytes, hafter⟩ := write_append_inj (List.cons.inj h).2
  exact ⟨charsOfBytes_injective hbytes, hafter⟩

end Quoted

end Fixtures.Text
