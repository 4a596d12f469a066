import Fixtures.Locator
import Fixtures.Proofs.Tree.Walk

/-!
# Overrides

A variable that is set to more than blanks selects a directory by its text. What is looked up is the
normal form of the text, and this makes no difference: the text itself leads to the same directory,
whatever links, steps back and empty pieces lie on the way.
-/

namespace Fixtures

namespace Surroundings

/-- The path of a text leads to a directory exactly when the text does. -/
theorem leadsToDirectory_ofText_iff (s : Surroundings) {text : String}
    (hnul : '\x00' ∉ text.toList) (hne : text ≠ "")
    (hlength : text.utf8ByteSize ≤ Tree.pathLimit) :
    s.leadsToDirectory (Path.ofText text) = .ok true ↔
      ∃ id, s.tree.lookUp s.workingDirectory text = .ok id ∧ (s.tree.directory? id).isSome := by
  have hnul' : '\x00' ∉ (Path.ofText text).toText.toList := fun h =>
    hnul ((Path.toText_ofText_sublist hne).subset h)
  rw [leadsToDirectory, Tree.leadsToDirectory_eq_true_iff hnul']
  exact exists_congr fun id => Tree.lookUp_toText_ofText_iff hne hlength s.workingDirectory id

end Surroundings

namespace Locator

variable {s : Surroundings} {variableName value : String}

/-- What is configured by a variable that is set is its value without the blanks at its ends. -/
theorem configured_of_value (hvalue : s.valueOf? variableName = some value) :
    configured s variableName = Text.trim value := by
  simp [configured, hvalue]

/-- An override is located exactly when the path of its text leads to a directory, and nothing else
is located while it is set. -/
theorem resolve_eq_ok_iff_of_value (hvalue : s.valueOf? variableName = some value)
    (hne : Text.trim value ≠ "") (fallback : Path) (base : Option Path) (found : DataDirectory) :
    resolve s variableName fallback base = .ok found ↔
      found = ⟨Path.ofText (Text.trim value), .override, variableName⟩ ∧
        s.leadsToDirectory (Path.ofText (Text.trim value)) = .ok true := by
  have hconfigured : configured s variableName = Text.trim value := configured_of_value hvalue
  rw [resolve_of_configured (by rwa [hconfigured]), confirm_eq_ok_iff, hconfigured]

/-- **Normal forms do not change which directory an override selects.** A value that is more than
blanks, holds no NUL and is not too long is located as an override exactly when its own text leads
to a directory. The path that is answered with is the normal form of the text, and both lead to one
and the same directory. -/
theorem resolve_override_iff (hvalue : s.valueOf? variableName = some value)
    (hnul : '\x00' ∉ value.toList) (hne : Text.trim value ≠ "")
    (hlength : (Text.trim value).utf8ByteSize ≤ Tree.pathLimit) (fallback : Path)
    (base : Option Path) :
    ((∃ found, resolve s variableName fallback base = .ok found ∧ found.source = .override) ↔
      ∃ id, s.tree.lookUp s.workingDirectory (Text.trim value) = .ok id ∧
        (s.tree.directory? id).isSome) ∧
    ∀ found, resolve s variableName fallback base = .ok found →
      found.path = Path.ofText (Text.trim value) ∧
      ∃ id, s.tree.lookUp s.workingDirectory (Text.trim value) = .ok id ∧
        s.tree.lookUp s.workingDirectory found.path.toText = .ok id ∧
        (s.tree.directory? id).isSome := by
  have hnul' : '\x00' ∉ (Text.trim value).toList := fun h =>
    hnul ((Text.toList_trim_sublist value).subset h)
  have hleads := s.leadsToDirectory_ofText_iff hnul' hne hlength
  simp only [resolve_eq_ok_iff_of_value hvalue hne, hleads]
  refine ⟨⟨?_, fun h => ⟨_, ⟨rfl, h⟩, rfl⟩⟩, ?_⟩
  · rintro ⟨found, ⟨_, h⟩, _⟩
    exact h
  · rintro found ⟨rfl, id, hid⟩
    have hnormal := (Tree.lookUp_toText_ofText_iff hne hlength s.workingDirectory id).mpr hid
    exact ⟨rfl, id, hid.1, hnormal.1, hid.2⟩

/-- An override with blanks at its ends, and with a dot, an empty piece, a link, a step back from
where the link leads and a slash at the end on its way. -/
theorem resolve_override_behind_link :
    let tree : Tree := ⟨[.directory ⟨0, ⟨[("data", 1), ("far", 2)]⟩, false⟩,
      .directory ⟨0, ⟨[("link", 3)]⟩, false⟩, .directory ⟨0, {}, false⟩, .link "../far"]⟩
    let s : Surroundings :=
      ⟨tree, 0, ⟨[("DATA", " data/.//link/../far/ ")]⟩, Path.ofText "/project"⟩
    let outcome := resolve s "DATA" (Path.ofText "usual") none
    (∃ found, outcome = .ok found ∧ found.source = .override) ∧
      ∀ found, outcome = .ok found →
        found.path = Path.ofText "data/link/../far" ∧
          s.tree.lookUp 0 found.path.toText = .ok 2 := by
  intro tree s outcome
  have hraw : s.tree.lookUp 0 "data/.//link/../far/" = .ok 2 := by decide +kernel
  have hvalue : s.valueOf? "DATA" = some " data/.//link/../far/ " := rfl
  have htrim : Text.trim " data/.//link/../far/ " = "data/.//link/../far/" := rfl
  obtain ⟨hlocated, hpath⟩ := resolve_override_iff hvalue (by decide) (by rw [htrim]; decide)
    (by rw [htrim]; decide) (Path.ofText "usual") none
  rw [htrim] at hlocated hpath
  refine ⟨hlocated.mpr ⟨2, hraw, rfl⟩, fun found hfound => ?_⟩
  obtain ⟨hnormal, id, hid, hsame, _⟩ := hpath found hfound
  refine ⟨hnormal.trans (by decide), hsame.trans ?_⟩
  exact hid.symm.trans hraw

end Locator

end Fixtures
