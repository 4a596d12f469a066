import Fixtures.Proofs.Tree.Writing

/-!
# Files with several names

A file may be under more than one name, and what is written under one of them is shown under all.
Where a file has no other name, a change to it is a change at one place only. Such a file keeps to
its one name whatever directories are made and whatever files are written.
-/

namespace Fixtures.Tree

variable {t t' : Tree} {names other : List String} {id place : NodeId} {name : String}

/-- What names lead to has no other place. -/
def Sole (t : Tree) (names : List String) : Prop :=
  ∀ id, t.descend names = some id → ∀ other, t.descend other = some id → other = names

/-- Names that lead nowhere share nothing. -/
theorem sole_of_descend_eq_none (h : t.descend names = none) : t.Sole names := by
  intro id hid
  rw [h] at hid
  cases hid

/-! ## One place -/

/-- A file with no other name is shown at its place, and nothing else changes. -/
theorem Stored.at?_eq_update {content : List UInt8} (h : t.Stored t' names content id)
    (ht : t.WellFormed) (hsole : t.Sole names) :
    t'.at? = Function.update t.at? names (some (.file content)) := by
  funext other
  rw [h.at?_eq, Function.update_apply]
  refine if_congr ((h.descend_iff other).trans ⟨?_, Or.inl⟩) rfl rfl
  rintro (hother | hother)
  · exact hother
  · -- The file was there, and so it was there already under the names.
    have hnames := h.extended.descend_of_lt h.descend_eq (ht.lt_size_of_descend hother)
    exact hsole id hnames other hother

/-- What has no other place has none after directories have been made. -/
theorem Ensured.sole {front : List String} (h : t.Ensured t' front) (hsole : t.Sole names) :
    t'.Sole names := by
  intro id hid other hother
  cases hdirectory : t'.directory? id with
  | some directory => exact h.wellFormed.descend_inj (by rw [hdirectory]; rfl) hother hid
  | none =>
    have hbefore (place : List String) : t'.descend place = some id ↔ t.descend place = some id :=
      h.wellFormed.descend_eq_some_iff_of_extends h.extended
        (fun _ => h.at?_of_ne_directory) hdirectory
    exact hsole id ((hbefore names).mp hid) other ((hbefore other).mp hother)

/-- What has no other place has none after a file has been written. -/
theorem Stored.sole {file : List String} {content : List UInt8} (h : t.Stored t' file content id)
    (ht : t.WellFormed) (hsole : t.Sole names) : t'.Sole names := by
  intro node hnames other hother
  by_cases hlt : node < t.size
  · exact hsole node (h.extended.descend_of_lt hnames hlt) other
      (h.extended.descend_of_lt hother hlt)
  · -- What is new is the file, which has one place.
    have hfile (place : List String) (hplace : t'.descend place = some node) : place = file := by
      have hnew : t.descend place ≠ some node := fun hbefore =>
        hlt (ht.lt_size_of_descend hbefore)
      by_cases hid : node = id
      · exact ((h.descend_iff place).mp (hid ▸ hplace)).resolve_right (hid ▸ hnew)
      · exact absurd (h.descend_eq_of_ne hplace hid) hnew
    rw [hfile other hother, hfile names hnames]

end Fixtures.Tree
