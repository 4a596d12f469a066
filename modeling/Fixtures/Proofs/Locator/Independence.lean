import Fixtures.Locator

/-!
# What a location depends on

Two surroundings in which the same files are seen from the same place locate the same directory,
as far as they agree on what decides: the value of the variable where it is more than blanks, and
the fallback with its base where the variable is unset or blank. The rest of the surroundings, the
other variables included, does not matter.
-/

namespace Fixtures

/-- Two surroundings in which the same files are seen from the same place. -/
structure Surroundings.SameView (s t : Surroundings) : Prop where
  /-- The tree is the same. -/
  tree : t.tree = s.tree
  /-- Relative paths start from the same directory. -/
  workingDirectory : t.workingDirectory = s.workingDirectory

namespace Locator

variable {s t : Surroundings} {variableName : String}

/-- A directory is confirmed by the files that are seen. -/
theorem confirm_congr (hview : s.SameView t) : confirm t = confirm s := by
  funext directory missing
  simp only [confirm, Surroundings.leadsToDirectory, hview.tree, hview.workingDirectory]

/-- What is configured depends on the value of the variable. -/
theorem configured_congr (hvalue : t.valueOf? variableName = s.valueOf? variableName) :
    configured t variableName = configured s variableName := by
  rw [configured, configured, hvalue]

/-- Where the same is configured in one project, the same is located. -/
theorem resolve_congr (hview : s.SameView t) (hroot : t.projectRoot = s.projectRoot)
    (hconfigured : configured t variableName = configured s variableName) (fallback : Path)
    (base : Option Path) :
    resolve t variableName fallback base = resolve s variableName fallback base := by
  simp only [resolve, hconfigured, hroot, confirm_congr hview]

/-- A variable that has one value of more than blanks decides alone. -/
theorem resolve_congr_of_configured (hview : s.SameView t)
    (hvalue : t.valueOf? variableName = s.valueOf? variableName)
    (h : configured s variableName ≠ "") (fallback fallback' : Path) (base base' : Option Path) :
    resolve t variableName fallback' base' = resolve s variableName fallback base := by
  have hconfigured := configured_congr hvalue
  rw [resolve_of_configured (hconfigured ▸ h), resolve_of_configured h, hconfigured,
    confirm_congr hview]

/-- While the variable is unset or blank, the path that the fallback has from its base decides. -/
theorem resolve_congr_of_blank (hview : s.SameView t) (h : configured s variableName = "")
    (h' : configured t variableName = "") {fallback : Path} {base base' : Option Path}
    (hpath : (base'.getD t.projectRoot).join fallback = (base.getD s.projectRoot).join fallback) :
    resolve t variableName fallback base' = resolve s variableName fallback base := by
  rw [resolve_of_blank h', resolve_of_blank h, hpath, confirm_congr hview]

/-- What is located comes from the variable exactly where that is more than blanks. -/
theorem source_eq_of_resolve {fallback : Path} {base : Option Path} {found : DataDirectory}
    (hfound : resolve s variableName fallback base = .ok found) :
    found.source = if configured s variableName = "" then .fallback else .override := by
  by_cases h : configured s variableName = ""
  · rw [resolve_of_blank h, confirm_eq_ok_iff] at hfound
    rw [if_pos h, hfound.1]
  · rw [resolve_of_configured h, confirm_eq_ok_iff] at hfound
    rw [if_neg h, hfound.1]

/-- The location of a corpus depends on the project and on one variable. -/
theorem corpus_congr (hview : s.SameView t) (hroot : t.projectRoot = s.projectRoot)
    {c : Settings.Corpus} (hvalue : t.valueOf? c.variableName = s.valueOf? c.variableName) :
    corpus t c = corpus s c := by
  rw [corpus, corpus, resolve_congr hview hroot (configured_congr hvalue)]

/-- **Nothing else decides.** Where the same files are seen from the same place, the outcome for a
variable with one value of more than blanks is the same for all fallbacks, bases, projects and other
variables, and no success comes from the fallback. While the variable is unset or blank on both
sides, the outcome depends on the fallback and its base only, and on the base only if the fallback
is relative, and no success comes from the variable. The directories of the corpora depend on their
own variables. -/
theorem resolve_independent (hview : s.SameView t) (variableName : String) :
    (t.valueOf? variableName = s.valueOf? variableName → configured s variableName ≠ "" →
      ∀ fallback fallback' base base',
        resolve t variableName fallback' base' = resolve s variableName fallback base ∧
        ∀ found, resolve s variableName fallback base = .ok found → found.source = .override) ∧
    (configured s variableName = "" → configured t variableName = "" → ∀ fallback base base',
      (base'.getD t.projectRoot = base.getD s.projectRoot →
        resolve t variableName fallback base' = resolve s variableName fallback base) ∧
      (fallback.anchor ≠ .relative →
        resolve t variableName fallback base' = resolve s variableName fallback base) ∧
      ∀ found, resolve s variableName fallback base = .ok found → found.source = .fallback) ∧
    (t.projectRoot = s.projectRoot →
      (t.valueOf? "ARROW_TEST_DATA" = s.valueOf? "ARROW_TEST_DATA" → arrowData t = arrowData s) ∧
      (t.valueOf? "PARQUET_TEST_DATA" = s.valueOf? "PARQUET_TEST_DATA" →
        parquetData t = parquetData s)) := by
  refine ⟨fun hvalue h fallback fallback' base base' => ⟨?_, fun found hfound => ?_⟩,
    fun h h' fallback base base' => ⟨fun hbase => ?_, fun hanchor => ?_, fun found hfound => ?_⟩,
    fun hroot => ⟨fun hvalue => ?_, fun hvalue => ?_⟩⟩
  · exact resolve_congr_of_configured hview hvalue h fallback fallback' base base'
  · rw [source_eq_of_resolve hfound, if_neg h]
  · exact resolve_congr_of_blank hview h h' (by rw [hbase])
  · exact resolve_congr_of_blank hview h h'
      ((Path.join_of_anchor hanchor _).trans (Path.join_of_anchor hanchor _).symm)
  · rw [source_eq_of_resolve hfound, if_pos h]
  · rw [arrowData, arrowData, corpus_congr hview hroot hvalue]
  · rw [parquetData, parquetData, corpus_congr hview hroot hvalue]

/-- A bad override is not rescued by a fallback that is there, a blank variable counts as an unset
one, and an absolute fallback stands alone, in two projects that share one tree. -/
theorem resolve_independent_of_project :
    let tree : Tree := ⟨[.directory ⟨0, ⟨[("there", 1)]⟩, false⟩, .directory ⟨0, {}, false⟩]⟩
    let s : Surroundings := ⟨tree, 0, ⟨[("BAD", "gone"), ("BLANK", " ")]⟩, Path.ofText "/"⟩
    let t : Surroundings :=
      ⟨tree, 0, ⟨[("BAD", "gone"), ("PARQUET_TEST_DATA", "there")]⟩, Path.ofText "/there"⟩
    let u : Surroundings := ⟨tree, 0, ⟨[("PARQUET_TEST_DATA", "there")]⟩, Path.ofText "/there"⟩
    let there := Path.ofText "there"
    let absolute := Path.ofText "/there"
    resolve t "BAD" (Path.ofText "gone") none = resolve s "BAD" there (some (Path.ofText "/")) ∧
      resolve t "BLANK" there (some (Path.ofText "/")) = resolve s "BLANK" there none ∧
      resolve t "BLANK" absolute none = resolve s "BLANK" absolute none ∧
      arrowData u = arrowData t ∧ parquetData u = parquetData t := by
  intro tree s t u there absolute
  have hview : s.SameView t := ⟨rfl, rfl⟩
  have hview' : t.SameView u := ⟨rfl, rfl⟩
  obtain ⟨hset, _⟩ := resolve_independent hview "BAD"
  obtain ⟨_, hblank, _⟩ := resolve_independent hview "BLANK"
  obtain ⟨_, _, hcorpora⟩ := resolve_independent hview' "BAD"
  have hrelative := hblank (by decide) (by decide) there none (some (Path.ofText "/"))
  have habsolute := hblank (by decide) (by decide) absolute none none
  exact ⟨(hset rfl (by decide) there (Path.ofText "gone") (some (Path.ofText "/")) none).1,
    hrelative.1 rfl, habsolute.2.1 (by decide), (hcorpora rfl).1 rfl, (hcorpora rfl).2 rfl⟩

end Locator

end Fixtures
