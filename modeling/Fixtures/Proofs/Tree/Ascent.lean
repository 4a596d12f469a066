import Fixtures.Proofs.Tree.Descent

/-!
# Ways back up

The way up from a directory that names lead to, and down again from there, is the way down from the
directory above. Links behind the way up are taken in the same number, so a path that goes down to a
directory, up and on is looked up like the one that leaves the directory out. At the root both stay
where they are.
-/

namespace Fixtures.Tree

/-- No piece of a text is the slash at its end. -/
theorem Step.ofPiece_ne_finalSlash (piece : List Char) : Step.ofPiece piece ≠ .finalSlash := by
  unfold Step.ofPiece
  split
  · simp
  · split <;> simp

/-- There is no slash at the end of the steps of parts. -/
theorem finalSlash_not_mem_map_ofPiece (parts : List String) :
    Step.finalSlash ∉ parts.map fun part => Step.ofPiece part.toList := by
  intro hslash
  obtain ⟨part, _, hpart⟩ := List.mem_map.mp hslash
  exact Step.ofPiece_ne_finalSlash _ hpart

/-- The pieces of names are steps to these names. -/
theorem map_ofPiece_of_isName {names : List String} (hnames : ∀ name ∈ names, IsName name) :
    (names.map fun name => Step.ofPiece name.toList) = names.map Step.name :=
  List.map_congr_left fun name hname => (hnames name hname).ofPiece_eq

namespace Nested

variable {t : Tree} {names : List String} {id : NodeId} {directory : Directory} (h : t.Nested)
  (habove : ∀ directory, t.directory? root = some directory → directory.parent = root)

include h habove

/-- Above a directory that names lead to there is the one that the names before the last lead to. -/
theorem descend_dropLast (hid : t.descend names = some id)
    (hdirectory : t.directory? id = some directory) :
    t.descend names.dropLast = some directory.parent ∧
      (t.directory? directory.parent).isSome := by
  cases names using List.reverseRecOn with
  | nil =>
    cases hid
    rw [habove directory hdirectory]
    exact ⟨rfl, by simp [hdirectory]⟩
  | append_singleton names name =>
    obtain ⟨above, hnames, hchild⟩ := exists_of_descend_append hid
    obtain ⟨found, hfound, _⟩ := directory?_of_child? hchild
    rw [(h.stands above name id directory hchild hdirectory).1, List.dropLast_concat]
    exact ⟨hnames, by simp [hfound]⟩

/-- **Down, up and on** is down without the last name and on, with as many links left. -/
theorem walk_up (links : Nat) (hid : t.descend names = some id)
    (hdirectory : t.directory? id = some directory) {rest : List Step}
    (hrest : Step.finalSlash ∉ rest) :
    t.walk false links root (names.map Step.name ++ .up :: rest) =
      t.walk false links root (names.dropLast.map Step.name ++ rest) := by
  obtain ⟨hnames, hsome⟩ := h.descend_dropLast habove hid hdirectory
  obtain ⟨above, hparent⟩ := Option.isSome_iff_exists.mp hsome
  have hslash : Step.finalSlash ∉ Step.up :: rest := by simpa using hrest
  obtain ⟨follow, hwalk⟩ := t.exists_walk_eq false links
  have hup : t.passAlong false follow id (.up :: rest) =
      t.passAlong false follow directory.parent rest := by
    simp [passAlong, hdirectory, enter, target?_of_directory? hparent]
  rw [hwalk, h.passAlong_names false follow hid (target?_of_directory? hdirectory) hslash, hup,
    h.passAlong_names false follow hnames (target?_of_directory? hparent) hrest]

/-- **Beside a directory.** A path that goes on from a directory by a step up leads to the same
directory as the path that goes on from the one above, or neither leads to one. -/
theorem lookUp_join_up_iff {project up place : Path} (hanchor : project.anchor ≠ .relative)
    (hproject : t.at? project.parts = some .directory) (hup : up.anchor = .relative)
    (hplace : place.anchor = .relative) (hparts : up.parts = ".." :: place.parts)
    (hlength : (project.join up).toText.utf8ByteSize ≤ pathLimit) (here id : NodeId) :
    t.lookUp here (project.join up).toText = .ok id ∧ (t.directory? id).isSome ↔
      t.lookUp here (project.parent.join place).toText = .ok id ∧ (t.directory? id).isSome := by
  obtain ⟨_, directory, hid, hdirectory⟩ := exists_directory_of_at? hproject
  obtain ⟨hupAnchor, hupParts⟩ := Path.join_of_relative hup project
  obtain ⟨hbesideAnchor, hbesideParts⟩ := Path.join_of_relative hplace project.parent
  have hrooted : (project.parent.join place).anchor ≠ .relative := by rwa [hbesideAnchor]
  have hsame : (project.join up).anchor = (project.parent.join place).anchor :=
    hupAnchor.trans hbesideAnchor.symm
  have hsublist : (project.parent.join place).parts.Sublist (project.join up).parts := by
    rw [hbesideParts, hupParts, hparts]
    exact (List.dropLast_sublist _).append (List.sublist_cons_self ..)
  have hlength' := (Path.utf8ByteSize_toText_le hrooted hsame hsublist).trans hlength
  have hnames := h.isName_of_descend hid
  have hbefore : ∀ name ∈ project.parts.dropLast, IsName name := fun name hname =>
    hnames name (List.dropLast_subset _ hname)
  -- Both texts are walked from the root, one along the names and up, the other without the last.
  rw [lookUp_directory_iff (Path.toText_ne_empty _) hlength,
    lookUp_directory_iff (Path.toText_ne_empty _) hlength', Path.ofText_toText, Path.ofText_toText,
    if_neg hrooted, if_neg (hsame ▸ hrooted), hupParts, hbesideParts, hparts, List.map_append,
    List.map_append, map_ofPiece_of_isName hnames, List.map_cons]
  have hparent : project.parent.parts = project.parts.dropLast := rfl
  rw [hparent, map_ofPiece_of_isName hbefore]
  have hwalk := h.walk_up habove linkLimit hid hdirectory
    (finalSlash_not_mem_map_ofPiece place.parts)
  rw [← hwalk]
  rfl

end Nested

end Fixtures.Tree
