import Fixtures.Proofs.Tree.Occupation
import Fixtures.Proofs.Workspace.Scratch

/-!
# When the directory of scratch files can be made

The directory of scratch files is made with those above it, below the directory that the fixtures
stand in. That goes well exactly if no name on the way is in the way, and then the directories that
were missing are all that is new.
-/

namespace Fixtures

namespace Scratch

open Fixtures.Tree

section Prepare

variable {s : Surroundings} {base : List String} (h : s.tree.Sound)
  (hbase : s.tree.descend base = some s.workingDirectory)
  (hshown : s.tree.at? base = some .directory)
  (hlength : (Path.rooted (base ++ Settings.scratchNames)).utf8ByteSize ≤ pathLimit)

include h hbase hshown

/-- The directory of scratch files is below the place where the fixtures stand. -/
theorem directory_eq_of_descend :
    s.tree.pathOf s.workingDirectory = .ok (Path.rooted base) ∧
      directory s = .ok (directoryBelow (Path.ofText (Path.rooted base))) := by
  have hpath : s.tree.pathOf s.workingDirectory = .ok (Path.rooted base) :=
    h.pathOf_eq_ok_iff.mpr ⟨base, hbase, hshown, rfl⟩
  refine ⟨hpath, ?_⟩
  unfold directory
  rw [hpath]

include hlength

omit hshown in
/-- A path along the names to scratch files can be looked up. -/
theorem isPath_scratchNames : IsPath (base ++ Settings.scratchNames) where
  isName := List.forall_mem_append.mpr ⟨h.isName_of_descend hbase, isName_of_mem_scratchNames⟩
  length_le := hlength

/-- The way to scratch files is prepared with directories that were missing, or a name is in the way
and the tree is as it was. -/
theorem prepare_cases_of_descend :
    (∃ found missing place id, Settings.scratchNames = found ++ missing ∧
      prepare s = ((s.tree.dig id missing).1,
        .ok (directoryBelow (Path.ofText (Path.rooted base)))) ∧
      Completed s.tree (s.tree.dig id missing).1 s.workingDirectory base found missing place id) ∨
    (∃ names ∈ levels base Settings.scratchNames, s.tree.Blocked s.workingDirectory names) ∧
      ∃ failure, prepare s = (s.tree, .error failure) := by
  have hpath := isPath_scratchNames h hbase hlength
  obtain ⟨hanchor, hparts⟩ :=
    directoryBelow_rooted fun part hpart => (h.isName_of_descend hbase part hpart).isPart
  unfold prepare
  rw [(directory_eq_of_descend h hbase hshown).2]
  rcases h.ensure_cases_of_path s.workingDirectory hanchor hpath hparts hshown with
    ⟨found, missing, place, id, hsplit, hensured, hcompleted⟩ | ⟨hblocked, failure, hrefused⟩
  · left
    refine ⟨found, missing, place, id, hsplit, ?_, hcompleted⟩
    simp only [hensured]
  · right
    refine ⟨hblocked, ?_⟩
    simp only [hrefused]
    exact ⟨_, rfl⟩

/-- A name that is in the way is in the way of scratch files. -/
theorem prepare_eq_error_of_blocked {names : List String}
    (hmem : names ∈ levels base Settings.scratchNames)
    (hblocked : s.tree.Blocked s.workingDirectory names) :
    ∃ failure, prepare s = (s.tree, .error failure) := by
  obtain ⟨hanchor, hparts⟩ :=
    directoryBelow_rooted fun part hpart => (h.isName_of_descend hbase part hpart).isPart
  obtain ⟨failure, hrefused⟩ := h.ensure_eq_error_of_blocked s.workingDirectory hanchor
    (isPath_scratchNames h hbase hlength) hparts hmem hblocked
  unfold prepare
  rw [(directory_eq_of_descend h hbase hshown).2]
  simp only [hrefused]
  exact ⟨_, rfl⟩

/-- **When the directory of scratch files can be made.** In any sound tree, and wherever in it the
fixtures stand, the way to scratch files is prepared exactly if no name on it is in the way. What is
in the way is a file, or a link that leads to a file or nowhere. On success directories are there
along all the names. Those that were there are the same nodes, with the entries that they had; those
that were missing, and no others, have been made at the place that the names before them lead to. -/
theorem prepare_eq_ok_iff :
    s.tree.pathOf s.workingDirectory = .ok (Path.rooted base) ∧
    ((∃ path, (prepare s).2 = .ok path) ↔
      ∀ names ∈ levels base Settings.scratchNames, ¬ s.tree.Blocked s.workingDirectory names) ∧
    (∀ names ∈ levels base Settings.scratchNames, s.tree.Blocked s.workingDirectory names →
      ∃ front last above next, names = front ++ [last] ∧
        s.tree.lookUp s.workingDirectory (Path.rooted front) = .ok above ∧
        s.tree.child? above last = some next ∧
        ((s.tree.content? next).isSome ∨ (s.tree.target? next).isSome ∧
          ((∃ fault, s.tree.lookUp s.workingDirectory (Path.rooted names) = .error fault) ∨
            ∃ id, s.tree.lookUp s.workingDirectory (Path.rooted names) = .ok id ∧
              (s.tree.content? id).isSome))) ∧
    ∀ path, (prepare s).2 = .ok path →
      ∃ found missing place id, Settings.scratchNames = found ++ missing ∧
        Completed s.tree (prepare s).1 s.workingDirectory base found missing place id := by
  have hpath := isPath_scratchNames h hbase hlength
  refine ⟨(directory_eq_of_descend h hbase hshown).1, ⟨?_, ?_⟩, ?_, ?_⟩
  · rintro ⟨path, hok⟩ names hmem hblocked
    obtain ⟨failure, hrefused⟩ := prepare_eq_error_of_blocked h hbase hshown hlength hmem hblocked
    rw [hrefused] at hok
    cases hok
  · intro hclear
    rcases prepare_cases_of_descend h hbase hshown hlength with
      ⟨found, missing, place, id, _, hprepared, _⟩ | ⟨⟨names, hmem, hblocked⟩, _⟩
    · exact ⟨_, congrArg Prod.snd hprepared⟩
    · exact absurd hblocked (hclear names hmem)
  · intro names hmem hblocked
    exact hblocked.exists_file_or_link h (hpath.of_prefix (prefix_of_mem_levels hmem))
  · intro path hok
    rcases prepare_cases_of_descend h hbase hshown hlength with
      ⟨found, missing, place, id, hsplit, hprepared, hcompleted⟩ | ⟨_, failure, hrefused⟩
    · rw [hprepared]
      exact ⟨found, missing, place, id, hsplit, hcompleted⟩
    · rw [hrefused] at hok
      cases hok

end Prepare

end Scratch

namespace Workspace

open Fixtures.Tree

/-- A workspace whose directory has a link under the first name on the way to scratch files, and the
link leads nowhere. -/
def behindNothing : Workspace where
  tree := ((Tree.empty.addNode root "w" (.directory { parent := root })).addNode 1 "target"
    (.link "e"))
  workingDirectory := 1
  projectRoot := Path.ofText "/w"

/-- The tree of the workspace is sound. -/
theorem sound_behindNothing : behindNothing.tree.Sound := by
  dsimp only [behindNothing]
  refine Sound.addNode rfl ?_ (by decide) (.link (by decide))
  exact Sound.addNode rfl sound_empty (by decide) .directory

/-- In the workspace whose link leads to another directory the way to scratch files is prepared, so
no name on it is in the way, and the directories are in the other one. Where the link leads nowhere
it is in the way itself. -/
theorem prepare_eq_ok_iff_through_links :
    (∀ names ∈ levels ["w"] Settings.scratchNames, ¬ throughLink.tree.Blocked 1 names) ∧
    (∃ found missing place id, Settings.scratchNames = found ++ missing ∧
      Completed throughLink.tree (Scratch.prepare throughLink.toSurroundings).1 1 ["w"] found
        missing place id) ∧
    (Scratch.prepare throughLink.toSurroundings).1.at? ["e", "debug", "testdata"] =
      some .directory ∧
    behindNothing.tree.Blocked 1 ["w", "target"] ∧
    ¬ ∃ path, (Scratch.prepare behindNothing.toSurroundings).2 = .ok path := by
  have hlength : (Path.rooted (["w"] ++ Settings.scratchNames)).utf8ByteSize ≤ pathLimit := by
    decide +kernel
  obtain ⟨_, hclear, _, hcompleted⟩ := @Scratch.prepare_eq_ok_iff throughLink.toSurroundings ["w"]
    sound_throughLink rfl rfl hlength
  obtain ⟨_, hblocked, _, _⟩ := @Scratch.prepare_eq_ok_iff behindNothing.toSurroundings ["w"]
    sound_behindNothing rfl rfl hlength
  obtain ⟨path, hok⟩ : ∃ path, (Scratch.prepare throughLink.toSurroundings).2 = .ok path :=
    exists_ok_of_isSome (by decide +kernel)
  have hnowhere : behindNothing.tree.lookUp 1 (Path.rooted ["w", "target"]) = .error .noEntry := by
    decide +kernel
  have hin : behindNothing.tree.Blocked 1 ["w", "target"] := by
    refine ⟨⟨["w"], "target", 1, rfl, by decide +kernel, by decide⟩, fun id hlookUp => ?_⟩
    rw [hnowhere] at hlookUp
    cases hlookUp
  refine ⟨hclear.mp ⟨path, hok⟩, hcompleted path hok, by decide +kernel, hin, fun hprepared => ?_⟩
  exact hblocked.mp hprepared ["w", "target"] (by decide) hin

end Workspace

end Fixtures
