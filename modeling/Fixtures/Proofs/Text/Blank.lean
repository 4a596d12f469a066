import Fixtures.Text.Blank
import Mathlib.Data.List.TakeWhile

/-!
# Trimmed texts

Trimming looks at the ends of a text only. Blanks that are put around a text are dropped again, a
text of blanks loses everything, and a text that neither begins nor ends with a blank loses nothing,
whatever blanks are inside.
-/

namespace Fixtures.Text

/-- There is nothing else than blanks in a text. -/
def AllBlank (s : String) : Prop :=
  ∀ c ∈ s.toList, isBlank c = true

/-- A text neither begins nor ends with a blank. -/
structure HasBareEnds (s : String) : Prop where
  /-- It does not begin with a blank. -/
  head : ∀ c ∈ s.toList.head?, isBlank c = false
  /-- It does not end with a blank. -/
  last : ∀ c ∈ s.toList.getLast?, isBlank c = false

instance (s : String) : Decidable (AllBlank s) :=
  decidable_of_iff (s.toList.all isBlank = true) List.all_eq_true

instance (s : String) : Decidable (HasBareEnds s) :=
  decidable_of_iff (s.toList.head?.any isBlank = false ∧ s.toList.getLast?.any isBlank = false)
    ⟨fun ⟨head, last⟩ =>
        ⟨(Option.any_eq_false _ _).mp head, (Option.any_eq_false _ _).mp last⟩,
      fun h => ⟨(Option.any_eq_false _ _).mpr h.head, (Option.any_eq_false _ _).mpr h.last⟩⟩

/-- Blanks around characters are dropped. -/
theorem trimBlanks_append_append {front back : List Char} (hfront : ∀ c ∈ front, isBlank c = true)
    (hback : ∀ c ∈ back, isBlank c = true) (cs : List Char) :
    trimBlanks (front ++ cs ++ back) = trimBlanks cs := by
  have hreverse : ∀ c ∈ back.reverse, isBlank c = true := fun c hc =>
    hback c (List.mem_reverse.mp hc)
  unfold trimBlanks
  rw [List.append_assoc, List.dropWhile_append_of_pos hfront, List.dropWhile_append]
  split
  · rename_i hempty
    -- Between the margins there are blanks only, and they all go from the front.
    rw [List.dropWhile_eq_nil_iff.mpr hback, List.isEmpty_iff.mp hempty]
  · rw [List.reverse_append, List.dropWhile_append_of_pos hreverse]

/-- Blanks around a text do not matter. -/
theorem trim_append_append {front back : String} (hfront : AllBlank front) (hback : AllBlank back)
    (s : String) : trim (front ++ s ++ back) = trim s := by
  rw [trim, trim, String.toList_append, String.toList_append,
    trimBlanks_append_append hfront hback]

/-- Nothing is left of a text exactly if it is made of blanks. -/
theorem trim_eq_empty_iff {s : String} : trim s = "" ↔ AllBlank s := by
  have hempty : trim s = "" ↔ trimBlanks s.toList = [] := by simp [trim]
  rw [hempty, trimBlanks, List.reverse_eq_nil_iff, List.dropWhile_eq_nil_iff]
  constructor
  · intro h c hc
    rw [← List.takeWhile_append_dropWhile (p := isBlank) (l := s.toList), List.mem_append] at hc
    rcases hc with hfront | hrest
    · exact List.mem_takeWhile_imp hfront
    · exact h c (List.mem_reverse.mpr hrest)
  · intro h c hc
    exact h c ((List.dropWhile_sublist isBlank).subset (List.mem_reverse.mp hc))

/-- Characters of which the first is no blank keep their front. -/
theorem dropWhile_isBlank_eq_self {cs : List Char} (h : ∀ c ∈ cs.head?, isBlank c = false) :
    cs.dropWhile isBlank = cs := by
  cases cs with
  | nil => rfl
  | cons c rest => rw [List.dropWhile_cons_of_neg (by simp [h c rfl])]

/-- A text that neither begins nor ends with a blank is left as it is. -/
theorem HasBareEnds.trim_eq {s : String} (h : HasBareEnds s) : trim s = s := by
  have hlast : ∀ c ∈ s.toList.reverse.head?, isBlank c = false := by
    rw [List.head?_reverse]
    exact h.last
  rw [trim, trimBlanks, dropWhile_isBlank_eq_self h.head, dropWhile_isBlank_eq_self hlast,
    List.reverse_reverse, String.ofList_toList]

end Fixtures.Text
