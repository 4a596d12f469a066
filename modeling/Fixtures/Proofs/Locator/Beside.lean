import Fixtures.Proofs.Locator.Margins
import Fixtures.Proofs.Tree.Ascent
import Fixtures.Proofs.Tree.Growth

/-!
# Corpora beside the project

The usual place of a corpus is written from the root of the project with a step up. As long as
nothing else is configured, the corpus that is found there is the directory that lies beside the
project, behind links or not, although the path to it keeps the step up in its text.
-/

namespace Fixtures

/-- The path of a place in the directory that the root of the project is in. -/
def Surroundings.beside (s : Surroundings) (place : String) : Path :=
  s.projectRoot.parent.join (Path.ofText place)

/-- An answer is a path to a directory: there is one exactly where the path leads to a directory,
and it is looked up like the path, if perhaps by another text. -/
structure Surroundings.AnswersWith {ε : Type} (s : Surroundings) (path : Path)
    (answer : Except ε String) : Prop where
  /-- There is an answer exactly where the path leads to a directory. -/
  ok_iff : (∃ text, answer = .ok text) ↔ s.FindsDirectory path
  /-- The answer leads where the path leads. -/
  lookUp_eq : ∀ text, answer = .ok text →
    s.tree.lookUp s.workingDirectory text = s.tree.lookUp s.workingDirectory path.toText

namespace Locator

variable {s : Surroundings}

/-- A corpus without a configured place is looked for from the root of the project. -/
theorem corpusCandidate_of_isBlank {c : Settings.Corpus} (hblank : s.IsBlank c.variableName) :
    corpusCandidate s c = s.projectRoot.join (Path.ofText c.usualPlace) := by
  rw [corpusCandidate, candidate, if_pos (configured_eq_empty_iff.mpr hblank), Option.getD_none]

/-- There is no NUL in a path that goes on from names of the project with parts that have none. -/
theorem nul_not_mem_of_parts (hnested : s.tree.Nested)
    (hproject : s.tree.at? s.projectRoot.parts = some .directory) {path : Path}
    {front back : List String} (hpath : path.parts = front ++ back)
    (hfront : front ⊆ s.projectRoot.parts) (hback : ∀ part ∈ back, '\x00' ∉ part.toList) :
    '\x00' ∉ path.toText.toList := by
  obtain ⟨_, _, hid, _⟩ := Tree.exists_directory_of_at? hproject
  apply Path.nul_not_mem_toText
  rw [hpath]
  intro part hpart
  rcases List.mem_append.mp hpart with hname | hpart
  · exact (hnested.isName_of_descend hid part (hfront hname)).nul_not_mem
  · exact hback part hpart

section Project

variable (hnested : s.tree.Nested)
  (habove : ∀ directory, s.tree.directory? Tree.root = some directory →
    directory.parent = Tree.root)
  (hanchor : s.projectRoot.anchor ≠ .relative)
  (hproject : s.tree.at? s.projectRoot.parts = some .directory)

include hnested habove hanchor hproject

/-- A corpus whose usual place is written with a step up is the directory beside the project. -/
theorem corpus_beside {c : Settings.Corpus} {place : String}
    (husual : (Path.ofText c.usualPlace).anchor = .relative)
    (hplace : (Path.ofText place).anchor = .relative)
    (hparts : (Path.ofText c.usualPlace).parts = ".." :: (Path.ofText place).parts)
    (hnul : ∀ part ∈ (Path.ofText place).parts, '\x00' ∉ part.toList)
    (hblank : s.IsBlank c.variableName)
    (hlength : (s.projectRoot.join (Path.ofText c.usualPlace)).toText.utf8ByteSize ≤
      Tree.pathLimit) {answer : Except CorpusFailure String}
    (hmem : (c, answer) ∈ [(Settings.arrowCorpus, arrowData s),
      (Settings.parquetCorpus, parquetData s)]) :
    s.AnswersWith (s.beside place) answer := by
  have htells := corpora_tell s hmem
  rw [corpusCandidate_of_isBlank hblank] at htells
  have hsame := hnested.lookUp_join_up_iff habove hanchor hproject husual hplace hparts hlength
    s.workingDirectory
  have hnulUsual : '\x00' ∉ (s.projectRoot.join (Path.ofText c.usualPlace)).toText.toList := by
    refine nul_not_mem_of_parts hnested hproject (Path.join_of_relative husual _).2
      (List.Subset.refl _) ?_
    rw [hparts]
    exact List.forall_mem_cons.mpr ⟨by decide, hnul⟩
  have hnulBeside : '\x00' ∉ (s.beside place).toText.toList :=
    nul_not_mem_of_parts hnested hproject (Path.join_of_relative hplace _).2
      (List.dropLast_subset _) hnul
  constructor
  · have hfinds : s.FindsDirectory (s.projectRoot.join (Path.ofText c.usualPlace)) ↔
        s.FindsDirectory (s.beside place) :=
      and_congr (iff_of_true hnulUsual hnulBeside) (exists_congr hsame)
    simp [htells.ok_iff, hfinds]
  · intro text htext
    obtain ⟨rfl, _, id, hid⟩ := (htells.ok_iff text).mp htext
    rw [hid.1]
    exact ((hsame id).mp hid).1.symm

/-- **The corpora lie beside the project.** Let the root of the project be an absolute path along
names to a directory, in a tree of nested directories with the root above itself. While its variable
is unset or blank, and the path of its usual place is not too long, a corpus is found exactly if its
place in the directory above the project leads to a directory, and what is answered leads to the
same directory. -/
theorem corpora_beside_project :
    (s.IsBlank "ARROW_TEST_DATA" →
      (s.projectRoot.join (Path.ofText "../testing/data")).toText.utf8ByteSize ≤ Tree.pathLimit →
      s.AnswersWith (s.beside "testing/data") (arrowData s)) ∧
    (s.IsBlank "PARQUET_TEST_DATA" →
      (s.projectRoot.join (Path.ofText "../parquet-testing/data")).toText.utf8ByteSize ≤
        Tree.pathLimit →
      s.AnswersWith (s.beside "parquet-testing/data") (parquetData s)) := by
  constructor
  · intro hblank hlength
    exact corpus_beside hnested habove hanchor hproject (c := Settings.arrowCorpus)
      (by decide) (by decide) (by decide) (by decide) hblank hlength (by simp)
  · intro hblank hlength
    exact corpus_beside hnested habove hanchor hproject (c := Settings.parquetCorpus)
      (by decide) (by decide) (by decide) (by decide) hblank hlength (by simp)

end Project

/-- Beside a project with a blank variable there is a link on the way to one corpus; the other one
is missing. -/
theorem corpora_beside_project_behind_link :
    let tree := ((((Tree.empty.addNode Tree.root "srv" (.directory { parent := Tree.root })).addNode
      1 "project" (.directory { parent := 1 })).addNode 1 "testing" (.link "store/")).addNode
      1 "store" (.directory { parent := 1 })).addNode 4 "data" (.directory { parent := 4 })
    let s : Surroundings :=
      ⟨tree, 2, ⟨[("ARROW_TEST_DATA", "\t ")]⟩, Path.ofText "/srv/project"⟩
    tree.lookUp 2 "/srv/testing/data" = .ok 5 ∧
      (∃ text, arrowData s = .ok text ∧ tree.lookUp 2 text = .ok 5) ∧
      ∀ text, parquetData s ≠ .ok text := by
  intro tree s
  have hsound : tree.Sound := by
    refine Tree.Sound.addNode rfl ?_ (by decide) .directory
    refine Tree.Sound.addNode rfl ?_ (by decide) .directory
    refine Tree.Sound.addNode rfl ?_ (by decide) (.link (by decide))
    refine Tree.Sound.addNode rfl ?_ (by decide) .directory
    exact Tree.Sound.addNode rfl Tree.sound_empty (by decide) .directory
  obtain ⟨harrow, hparquet⟩ := corpora_beside_project hsound.nested hsound.above_root
    (s := s) (by decide) rfl
  have hblank : s.IsBlank "ARROW_TEST_DATA" := by
    intro value hvalue
    obtain rfl : "\t " = value := Option.some.inj hvalue
    decide
  have hunset : s.IsBlank "PARQUET_TEST_DATA" := by
    rintro value ⟨⟩
  have harrow := harrow hblank (by decide +kernel)
  have hparquet := hparquet hunset (by decide +kernel)
  have hbeside : (s.beside "testing/data").toText = "/srv/testing/data" := by decide
  have hmissing : (s.beside "parquet-testing/data").toText = "/srv/parquet-testing/data" := by
    decide
  have hfound : tree.lookUp 2 "/srv/testing/data" = .ok 5 := by decide +kernel
  have hlost : tree.lookUp 2 "/srv/parquet-testing/data" = .error .noEntry := by decide +kernel
  refine ⟨hfound, ?_, fun text htext => ?_⟩
  · obtain ⟨text, htext⟩ := harrow.ok_iff.mpr
      ⟨by rw [hbeside]; decide, 5, by rw [hbeside]; exact hfound, by decide +kernel⟩
    have hlookUp := harrow.lookUp_eq text htext
    rw [hbeside] at hlookUp
    exact ⟨text, htext, hlookUp.trans hfound⟩
  · obtain ⟨_, id, hid, _⟩ := hparquet.ok_iff.mp ⟨text, htext⟩
    rw [hmissing] at hid
    cases hlost.symm.trans hid

end Locator

end Fixtures
