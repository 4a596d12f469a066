import Fixtures.Proofs.Tree.Descent

/-!
# Writing files along names

A file that is written along names is shown there with what was written, whether it was there before
or not, and the path along the names leads to it again. Where a file that was there has other names,
it is shown under these with what was written as well.
-/

namespace Fixtures

namespace Sparse

/-- What is written into an empty byte string is all that is in it. -/
theorem toList_overwrite_of_empty {c : Sparse} (hempty : c.toList = []) (bytes : List UInt8) :
    (c.overwrite 0 bytes).toList = bytes := by
  by_cases hbytes : bytes = []
  · subst hbytes
    exact hempty
  · have hlength : c.length = 0 := by
      rw [← length_toList, hempty]
      rfl
    rw [toList_overwrite c 0 hbytes, hempty, hlength]
    simp

end Sparse

namespace Tree

variable {t : Tree} {names : List String} {name : String} {id : NodeId}

/-- A file with a content is at names afterwards, besides those that led to it before, and nothing
else is shown than before. -/
structure Stored (before after : Tree) (names : List String) (content : List UInt8)
    (id : NodeId) : Prop where
  /-- The tree is well-formed. -/
  wellFormed : after.WellFormed
  /-- All that was there is kept. -/
  extended : before.Extends after
  /-- The names lead to the file, and beside them those that did before. -/
  descend_iff : ∀ other,
    after.descend other = some id ↔ other = names ∨ before.descend other = some id
  /-- The file is shown wherever it is. -/
  at?_eq : ∀ other, after.at? other =
    if after.descend other = some id then some (.file content) else before.at? other

/-- The names lead to the file. -/
theorem Stored.descend_eq {t' : Tree} {content : List UInt8}
    (hstored : t.Stored t' names content id) : t'.descend names = some id :=
  (hstored.descend_iff names).mpr (Or.inl rfl)

/-- The file that is shown is the node that the names lead to. -/
theorem Stored.exists_content {t' : Tree} {content : List UInt8}
    (hstored : t.Stored t' names content id) :
    ∃ kept, t'.content? id = some kept ∧ kept.toList = content := by
  have hshown : t'.at? names = some (.file content) := by
    rw [hstored.at?_eq, if_pos hstored.descend_eq]
  obtain ⟨node, kept, hnode, hkept, hcontent⟩ := at?_eq_file_iff.mp hshown
  obtain rfl : id = node := Option.some.inj (hstored.descend_eq.symm.trans hnode)
  exact ⟨kept, hkept, hcontent⟩

/-- The file was no directory before. -/
theorem Stored.directory?_eq_none {t' : Tree} {content : List UInt8}
    (hstored : t.Stored t' names content id) : t.directory? id = none := by
  obtain ⟨kept, hkept, _⟩ := hstored.exists_content
  rw [Option.eq_none_iff_forall_ne_some]
  intro directory hdirectory
  obtain ⟨found, hfound, _⟩ := hstored.extended.directory_of id directory hdirectory
  have hnode := node?_of_directory? hfound
  rw [node?_of_content? hkept] at hnode
  cases hnode

/-- All other nodes have the places that they had. -/
theorem Stored.descend_eq_of_ne {t' : Tree} {content : List UInt8} {other : List String}
    {node : NodeId} (hstored : t.Stored t' names content id)
    (hother : t'.descend other = some node) (hne : node ≠ id) : t.descend other = some node := by
  have hshown := hstored.at?_eq other
  rw [hother, if_neg fun heq => hne (Option.some.inj heq)] at hshown
  rw [hstored.wellFormed.descend_eq_of_at?_eq hstored.extended hshown.symm, hother]

/-- A file that is there gets another content. -/
theorem WellFormed.stored_set (h : t.WellFormed) {old : Sparse}
    (hid : t.descend names = some id) (hfile : t.content? id = some old) (content : Sparse) :
    t.Stored (t.set id (.file content)) names content.toList id where
  wellFormed := h.setFile hfile
  extended := extends_setFile hfile
  descend_iff := fun other => by
    rw [descend_setFile hfile]
    constructor
    · exact Or.inr
    · rintro (rfl | hother)
      · exact hid
      · exact hother
  at?_eq := fun other => by rw [descend_setFile hfile, at?_setFile hfile]

/-- A file that is missing is put at its place. -/
theorem WellFormed.stored_addNode (h : t.WellFormed) {directory : Directory}
    (hid : t.descend names = some id) (hdirectory : t.directory? id = some directory)
    (hname : IsName name) (hmissing : t.child? id name = none) (content : Sparse) :
    t.Stored (t.addNode id name (.file content)) (names ++ [name]) content.toList t.size where
  wellFormed := h.addNode hdirectory hname (.file content)
  extended := extends_addNode hdirectory hmissing (.file content)
  descend_iff := fun other => by
    rw [h.descend_addNode_eq_size_iff hdirectory hid hmissing (.file content)]
    exact ⟨Or.inl, fun hother => hother.resolve_right fun hnew =>
      Nat.lt_irrefl _ (h.lt_size_of_descend hnew)⟩
  at?_eq := fun other => by
    rw [h.at?_addNode hdirectory hid hmissing (.file content), Function.update_apply]
    exact if_congr
      (h.descend_addNode_eq_size_iff hdirectory hid hmissing (.file content) other).symm rfl rfl

/-- What is written to an empty file is its content. -/
theorem Stored.write {t' : Tree} (hstored : t.Stored t' names [] id) (content : List UInt8) :
    t.Stored (t'.write id 0 content) names content id := by
  obtain ⟨kept, hkept, hempty⟩ := hstored.exists_content
  have hwritten : t'.write id 0 content = t'.set id (.file (kept.overwrite 0 content)) := by
    simp only [Tree.write, hkept]
  have hset := hstored.wellFormed.stored_set hstored.descend_eq hkept (kept.overwrite 0 content)
  rw [Sparse.toList_overwrite_of_empty hempty] at hset
  rw [hwritten]
  exact {
    wellFormed := hset.wellFormed
    extended := hstored.extended.trans hset.extended
    descend_iff := fun other => by
      rw [hset.descend_iff, hstored.descend_iff]
      tauto
    at?_eq := fun other => by
      rw [hset.at?_eq, hstored.at?_eq]
      split
      · rfl
      · rename_i hother
        rw [if_neg fun hid => hother ((hset.descend_iff other).mpr (Or.inr hid))] }

section WriteFile

variable (here : NodeId) (h : t.WellFormed)
  (hlength : (Path.rooted (names ++ [name])).utf8ByteSize ≤ pathLimit)
  (habove : t.at? names = some .directory) (hname : IsName name)
  (hself : t.at? (names ++ [name]) = none ∨
    ∃ old, t.at? (names ++ [name]) = some (.file old))

include h hlength habove hname hself

/-- An empty file is opened below a directory, where there was none or another one. -/
theorem WellFormed.openEmpty_ok :
    ∃ t' id, t.openEmpty here (Path.rooted (names ++ [name])) = .ok (t', id) ∧
      t.Stored t' (names ++ [name]) [] id := by
  obtain ⟨above, directory, hid, hdirectory⟩ := exists_directory_of_at? habove
  obtain ⟨follow, hwalk⟩ := t.exists_walk_eq true linkLimit
  have hnames : ∀ other ∈ names ++ [name], IsName other :=
    List.forall_mem_append.mpr ⟨h.isName_of_descend hid, List.forall_mem_singleton.mpr hname⟩
  unfold Tree.openEmpty
  simp only [steps_rooted hnames hlength, bind, Except.bind, origin_rooted, hwalk]
  rcases hself with hnone | ⟨old, hold⟩
  · have hmissing : t.child? above name = none := h.child?_eq_none hid hnone
    have harrival := h.passAlong_missing true follow hid hdirectory hname hmissing
      (List.not_mem_nil (a := Step.finalSlash))
    rw [List.map_append, List.map_singleton, harrival]
    exact ⟨_, _, rfl, h.stored_addNode hid hdirectory hname hmissing .empty⟩
  · obtain ⟨id, content, hfile, hcontent, _⟩ := at?_eq_file_iff.mp hold
    have harrival := h.nested.passAlong_names true follow hfile (target?_of_content? hcontent)
      (List.not_mem_nil (a := Step.finalSlash))
    rw [List.append_nil] at harrival
    rw [harrival]
    simp only [passAlong, hcontent]
    exact ⟨_, _, rfl, h.stored_set hfile hcontent .empty⟩

/-- **Writing along names.** Below a directory a file is written, where there was none or another
one. -/
theorem WellFormed.writeFile_ok (content : List UInt8) :
    ∃ t' id, t.writeFile here (Path.rooted (names ++ [name])) content = .ok (t', id) ∧
      t.Stored t' (names ++ [name]) content id := by
  obtain ⟨t', id, hopened, hstored⟩ := h.openEmpty_ok here hlength habove hname hself
  refine ⟨t'.write id 0 content, id, ?_, hstored.write content⟩
  unfold Tree.writeFile
  rw [hopened]
  rfl

end WriteFile

/-- A file that was written along names is found there. -/
theorem Stored.openFile_eq {t' : Tree} {content : List UInt8}
    (hstored : t.Stored t' names content id) (here : NodeId)
    (hlength : (Path.rooted names).utf8ByteSize ≤ pathLimit) :
    t'.openFile here (Path.rooted names) = .ok id := by
  obtain ⟨kept, hkept, _⟩ := hstored.exists_content
  have hfound := hstored.wellFormed.lookUp_rooted here hlength hstored.descend_eq
    (target?_of_content? hkept)
  unfold openFile
  simp only [hfound, bind, Except.bind, hkept]

end Tree

end Fixtures
