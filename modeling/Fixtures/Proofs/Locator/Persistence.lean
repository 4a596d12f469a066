import Fixtures.Proofs.Locator.Margins

/-!
# Locating a directory again

The text of a path that was located names the same path when it is put into the variable, or taken
as the fallback from a base that has no parts. So as long as the files stay as they are, a directory
that was located is located again, unless its text begins or ends with a blank that the variable
would lose.
-/

namespace Fixtures

/-- Taken from a path without an anchor and without parts, a path is as it was. -/
theorem Path.join_of_no_parts {base : Path} (hanchor : base.anchor = .relative)
    (hparts : base.parts = []) (path : Path) : base.join path = path := by
  by_cases hrelative : path.anchor = .relative
  · obtain ⟨hjoinAnchor, hjoinParts⟩ := Path.join_of_relative hrelative base
    rw [hanchor, ← hrelative] at hjoinAnchor
    rw [hparts, List.nil_append] at hjoinParts
    obtain ⟨anchor, parts, hkept⟩ := path
    exact Path.mk.injEq .. |>.mpr ⟨hjoinAnchor, hjoinParts⟩
  · exact Path.join_of_anchor hrelative base

/-- Where the same files are seen, a path leads to a directory or not. -/
theorem Surroundings.SameView.findsDirectory_iff {s t : Surroundings} (hview : s.SameView t)
    {path : Path} : t.FindsDirectory path ↔ s.FindsDirectory path := by
  unfold FindsDirectory
  rw [hview.tree, hview.workingDirectory]

namespace Locator

variable {s t : Surroundings} {variableName : String} {path : Path}

/-- What is located is a directory, and the path to it is the candidate. -/
theorem findsDirectory_of_resolve {fallback : Path} {base : Option Path} {found : DataDirectory}
    (hfound : resolve s variableName fallback base = .ok found) :
    s.FindsDirectory found.path := by
  obtain ⟨rfl, hfinds⟩ := ((resolve_tells s variableName fallback base).ok_iff found).mp hfound
  dsimp only
  exact hfinds

/-- A candidate that leads to a directory is located, and the source tells what decided. -/
theorem resolve_of_candidate {fallback : Path} {base : Option Path}
    (hcandidate : candidate s variableName fallback base = path) (hfinds : s.FindsDirectory path) :
    resolve s variableName fallback base =
      .ok ⟨path, decider s variableName, variableName⟩ := by
  subst hcandidate
  exact ((resolve_tells s variableName fallback base).ok_iff _).mpr ⟨rfl, hfinds⟩

/-- **A located directory is located again.** Let the text of a path that was located neither begin
nor end with a blank. The path leads to a directory. Wherever the same files are seen, the same path
is located again: by the variable where this text is its value, whatever the fallback and its base,
and by the fallback where the variable is unset or blank and this text is the fallback, taken from a
base whose text is empty or a dot. -/
theorem resolve_again {fallback : Path} {base : Option Path} {found : DataDirectory}
    (hfound : resolve s variableName fallback base = .ok found)
    (hends : Text.HasBareEnds found.path.toText) :
    s.FindsDirectory found.path ∧
    ∀ t : Surroundings, s.SameView t →
      (t.valueOf? variableName = some found.path.toText → ∀ fallback' base',
        resolve t variableName fallback' base' = .ok ⟨found.path, .override, variableName⟩) ∧
      (t.IsBlank variableName → ∀ root ∈ ["", "."],
        resolve t variableName (Path.ofText found.path.toText) (some (Path.ofText root)) =
          .ok ⟨found.path, .fallback, variableName⟩) := by
  have hfinds : s.FindsDirectory found.path := findsDirectory_of_resolve hfound
  refine ⟨hfinds, fun t hview => ⟨fun hvalue fallback' base' => ?_, fun hblank root hroot => ?_⟩⟩
  · have hconfigured : configured t variableName = found.path.toText :=
      configured_of_hasBareEnds hvalue hends
    have hne : configured t variableName ≠ "" := by
      rw [hconfigured]
      exact found.path.toText_ne_empty
    have hcandidate : candidate t variableName fallback' base' = found.path := by
      rw [candidate, if_neg hne, hconfigured, Path.ofText_toText]
    have hdecider : decider t variableName = .override := if_neg hne
    rw [resolve_of_candidate hcandidate (hview.findsDirectory_iff.mpr hfinds), hdecider]
  · have hconfigured : configured t variableName = "" := configured_eq_empty_iff.mpr hblank
    have hempty : (Path.ofText root).anchor = .relative ∧ (Path.ofText root).parts = [] := by
      simp only [List.mem_cons, List.not_mem_nil, or_false] at hroot
      rcases hroot with rfl | rfl <;> decide
    have hcandidate : candidate t variableName (Path.ofText found.path.toText)
        (some (Path.ofText root)) = found.path := by
      rw [candidate, if_pos hconfigured, Option.getD_some, Path.ofText_toText,
        Path.join_of_no_parts hempty.1 hempty.2]
    have hdecider : decider t variableName = .fallback := if_pos hconfigured
    rw [resolve_of_candidate hcandidate (hview.findsDirectory_iff.mpr hfinds), hdecider]

/-- A fallback behind two slashes, with a dot and a link on its way, is located again by a variable
and by a fallback that is taken from a dot. -/
theorem resolve_again_behind_two_slashes :
    let tree : Tree := ⟨[.directory ⟨0, ⟨[("srv", 1)]⟩, false⟩,
      .directory ⟨0, ⟨[("data", 2), ("far", 3)]⟩, false⟩, .link "../srv/far",
      .directory ⟨1, {}, false⟩]⟩
    let project := Path.ofText "/srv"
    let s : Surroundings := ⟨tree, 1, {}, project⟩
    let t : Surroundings := ⟨tree, 1, ⟨[("DATA", "//srv/data")]⟩, project⟩
    let u : Surroundings := ⟨tree, 1, ⟨[("DATA", "\t ")]⟩, project⟩
    let path := Path.ofText "//srv/./data/"
    resolve s "DATA" (Path.ofText "data/.") (some (Path.ofText "//srv/")) =
        .ok ⟨path, .fallback, "DATA"⟩ ∧
      Text.HasBareEnds path.toText ∧
      resolve t "DATA" (Path.ofText "gone") none = .ok ⟨path, .override, "DATA"⟩ ∧
      resolve u "DATA" (Path.ofText path.toText) (some (Path.ofText ".")) =
        .ok ⟨path, .fallback, "DATA"⟩ := by
  intro tree project s t u path
  have hfound : resolve s "DATA" (Path.ofText "data/.") (some (Path.ofText "//srv/")) =
      .ok ⟨path, .fallback, "DATA"⟩ := by decide +kernel
  have htext : path.toText = "//srv/data" := by decide
  have hends : Text.HasBareEnds path.toText := by decide
  obtain ⟨_, hagain⟩ := resolve_again hfound hends
  have hvalue : t.valueOf? "DATA" = some path.toText := by
    rw [htext]
    rfl
  have hblank : u.IsBlank "DATA" := by
    intro value hvalue
    obtain rfl : "\t " = value := Option.some.inj hvalue
    decide
  exact ⟨hfound, hends, (hagain t ⟨rfl, rfl⟩).1 hvalue (Path.ofText "gone") none,
    (hagain u ⟨rfl, rfl⟩).2 hblank "." (by simp)⟩

end Locator

end Fixtures
