import Fixtures.Text.Ranges

/-!
# Blank characters

The characters that count as white space: the ASCII controls that separate things, the blanks and
the line and paragraph separators of Unicode. Trimming drops them at both ends of a text and
nowhere else.
-/

namespace Fixtures.Text

/-- The first and the last code point of each range of blank characters. -/
def blankRanges : List (Nat × Nat) :=
  [(0x9, 0xd), (0x1c, 0x20), (0x85, 0x85), (0xa0, 0xa0), (0x1680, 0x1680), (0x2000, 0x200a),
    (0x2028, 0x2029), (0x202f, 0x202f), (0x205f, 0x205f), (0x3000, 0x3000)]

/-- A character is blank if one of the ranges holds it. -/
def isBlank (c : Char) : Bool :=
  inRanges blankRanges c.toNat

/-- What is left of a sequence of characters when the blanks at both ends are dropped. -/
def trimBlanks (cs : List Char) : List Char :=
  ((cs.dropWhile isBlank).reverse.dropWhile isBlank).reverse

/-- A text without the blanks at its ends. -/
def trim (s : String) : String :=
  String.ofList (trimBlanks s.toList)

/-- Trimming drops characters at the ends only, so it only drops characters. -/
theorem toList_trim_sublist (s : String) : (trim s).toList.Sublist s.toList := by
  rw [trim, String.toList_ofList, trimBlanks]
  have hback := (List.dropWhile_sublist isBlank (l := (s.toList.dropWhile isBlank).reverse)).reverse
  rw [List.reverse_reverse] at hback
  exact hback.trans (List.dropWhile_sublist isBlank)

/-- A text without blanks is left as it is. -/
theorem trim_of_not_blank {s : String} (h : ∀ c ∈ s.toList, isBlank c = false) : trim s = s := by
  have hkeep (cs : List Char) (hcs : ∀ c ∈ cs, isBlank c = false) : cs.dropWhile isBlank = cs := by
    cases cs with
    | nil => rfl
    | cons c rest => simp [hcs c List.mem_cons_self]
  have hreverse : ∀ c ∈ s.toList.reverse, isBlank c = false := fun c hc =>
    h c (List.mem_reverse.mp hc)
  rw [trim, trimBlanks, hkeep _ h, hkeep _ hreverse, List.reverse_reverse, String.ofList_toList]

end Fixtures.Text
