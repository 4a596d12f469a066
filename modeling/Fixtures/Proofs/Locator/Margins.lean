import Fixtures.Proofs.Locator.Independence
import Fixtures.Proofs.Locator.Outcome
import Fixtures.Proofs.Locator.Override
import Fixtures.Proofs.Path.NormalForm
import Fixtures.Proofs.Text.Blank

/-!
# Blanks in a variable

Blanks around the value of a variable do not matter for what is located, and a value of blanks only
counts as none. Blanks inside a value do matter: where it neither begins nor ends with a blank, the
path that is looked up is the normal form of the whole value.
-/

namespace Fixtures

/-- A variable is unset, or there is nothing else than blanks in its value. -/
def Surroundings.IsBlank (s : Surroundings) (variableName : String) : Prop :=
  ∀ value, s.valueOf? variableName = some value → Text.AllBlank value

namespace Locator

variable {s t : Surroundings} {variableName value : String}

/-- Nothing is configured exactly if the variable is unset or blank. -/
theorem configured_eq_empty_iff :
    configured s variableName = "" ↔ s.IsBlank variableName := by
  unfold Surroundings.IsBlank
  cases hvalue : s.valueOf? variableName with
  | none =>
    have hnothing : configured s variableName = "" := by
      rw [configured, hvalue]
      rfl
    simp [hnothing]
  | some value => simp [configured_of_value hvalue, Text.trim_eq_empty_iff]

/-- A value that neither begins nor ends with a blank is configured as it is. -/
theorem configured_of_hasBareEnds (hvalue : s.valueOf? variableName = some value)
    (hends : Text.HasBareEnds value) : configured s variableName = value := by
  rw [configured_of_value hvalue, hends.trim_eq]

/-- **Blanks at the ends do not matter, and blanks inside do.** Where the same files are seen in one
project, a value and the same value with blanks around it have the same outcome, and a value of
blanks has the outcome of an unset variable. A value that is not empty and neither begins nor ends
with a blank is looked up by its normal form, in which every piece stands as it is: this is the path
that is located, not found, or refused for a length. -/
theorem resolve_of_margins (hview : s.SameView t) (hroot : t.projectRoot = s.projectRoot)
    {front back : String} (hvalue : s.valueOf? variableName = some value)
    (hmargins : t.valueOf? variableName = some (front ++ value ++ back))
    (hfront : Text.AllBlank front) (hback : Text.AllBlank back) (fallback : Path)
    (base : Option Path) :
    resolve t variableName fallback base = resolve s variableName fallback base ∧
    (Text.AllBlank value → ∀ u : Surroundings, s.SameView u → u.projectRoot = s.projectRoot →
      u.valueOf? variableName = none →
      resolve u variableName fallback base = resolve s variableName fallback base) ∧
    (value ≠ "" → Text.HasBareEnds value → ∃ path, Path.IsNormalForm value path.toText ∧
      s.Tells path (resolve s variableName fallback base) ⟨path, .override, variableName⟩
        (.configuredNotFound variableName path) (.system .nameTooLong path)) := by
  refine ⟨?_, fun hblank u hview' hroot' hunset => ?_, fun hne hends => ?_⟩
  · apply resolve_congr hview hroot
    rw [configured_of_value hmargins, configured_of_value hvalue,
      Text.trim_append_append hfront hback]
  · have hs : s.IsBlank variableName := fun other hother => by
      obtain rfl : value = other := Option.some.inj (hvalue.symm.trans hother)
      exact hblank
    have hu : u.IsBlank variableName := fun other hother => by
      rw [hunset] at hother
      cases hother
    apply resolve_congr hview' hroot'
    rw [configured_eq_empty_iff.mpr hu, configured_eq_empty_iff.mpr hs]
  · have hconfigured : configured s variableName = value := configured_of_hasBareEnds hvalue hends
    have htells := resolve_tells s variableName fallback base
    rw [candidate, decider, hconfigured, if_neg hne, if_neg hne] at htells
    exact ⟨Path.ofText value, Path.isNormalForm_toText_ofText value, htells⟩

/-- Blanks of several sorts around a value with blanks inside, one of which is a name of its own,
and blanks of several sorts in the place of a value. -/
theorem resolve_of_margins_inside :
    let tree : Tree := ⟨[.directory ⟨0, ⟨[("my data", 1)]⟩, false⟩,
      .directory ⟨0, ⟨[(" ", 2)]⟩, false⟩, .directory ⟨1, {}, false⟩]⟩
    let project := Path.ofText "/my data"
    let usual := Path.ofText " "
    let s : Surroundings := ⟨tree, 0, ⟨[("DATA", "my data/.// /"), ("BLANK", " ")]⟩, project⟩
    let t : Surroundings := ⟨tree, 0,
      ⟨[("DATA", "\t\u2003my data/.// /\u00a0"), ("BLANK", "\n \u3000")]⟩, project⟩
    let u : Surroundings := ⟨tree, 0, {}, project⟩
    Path.IsNormalForm "my data/.// /" "my data/ " ∧
      resolve t "DATA" usual none = .ok ⟨Path.ofText "my data/ ", .override, "DATA"⟩ ∧
      resolve t "BLANK" usual none = resolve s "BLANK" usual none ∧
      resolve u "BLANK" usual none = resolve s "BLANK" usual none := by
  intro tree project usual s t u
  have hview : s.SameView t := ⟨rfl, rfl⟩
  have hlocated : resolve s "DATA" usual none =
      .ok ⟨Path.ofText "my data/ ", .override, "DATA"⟩ := by decide +kernel
  have hvalue : s.valueOf? "DATA" = some "my data/.// /" := rfl
  have hmargins : t.valueOf? "DATA" = some ("\t\u2003" ++ "my data/.// /" ++ "\u00a0") := rfl
  have hspace : s.valueOf? "BLANK" = some " " := rfl
  have hspaces : t.valueOf? "BLANK" = some ("\n" ++ " " ++ "\u3000") := rfl
  obtain ⟨hsame, _, hinside⟩ := resolve_of_margins hview rfl hvalue hmargins
    (by decide) (by decide) usual none
  obtain ⟨hblank, hunset, _⟩ := resolve_of_margins hview rfl hspace hspaces
    (by decide) (by decide) usual none
  obtain ⟨path, hnormal, htells⟩ := hinside (by decide) (by decide)
  have hpath : path = Path.ofText "my data/ " :=
    (congrArg DataDirectory.path ((htells.ok_iff _).mp hlocated).1).symm
  have htext : path.toText = "my data/ " := by
    rw [hpath]
    decide
  rw [htext] at hnormal
  have hnothing := hunset (by decide) u ⟨rfl, rfl⟩ rfl rfl
  exact ⟨hnormal, hsame.trans hlocated, hblank, hnothing⟩

end Locator

end Fixtures
