import Fixtures.Proofs.Tree.Course

/-!
# Directories stay where they are

No directory is ever moved: whatever is made, written and taken away, each directory keeps the one
above it, also when it has been removed. So the root stays above itself, and a sound tree that stays
well-formed stays sound.
-/

namespace Fixtures

namespace Tree

variable {t t' t'' : Tree} {here id place : NodeId} {name text : String} {directory : Directory}

/-- Every directory is one afterwards, and the one above it is the same. -/
structure KeepsAbove (before after : Tree) : Prop where
  /-- The directory is there, with the same one above it. -/
  directory_of : ∀ id directory, before.directory? id = some directory →
    ∃ kept, after.directory? id = some kept ∧ kept.parent = directory.parent

namespace KeepsAbove

/-- Without a change every directory is as it was. -/
theorem refl (t : Tree) : t.KeepsAbove t where
  directory_of := fun _ directory hdirectory => ⟨directory, hdirectory, rfl⟩

/-- One change comes after another. -/
theorem trans (h : t.KeepsAbove t') (h' : t'.KeepsAbove t'') : t.KeepsAbove t'' where
  directory_of := fun id directory hdirectory => by
    obtain ⟨kept, hkept, hparent⟩ := h.directory_of id directory hdirectory
    obtain ⟨last, hlast, hparent'⟩ := h'.directory_of id kept hkept
    exact ⟨last, hlast, hparent'.trans hparent⟩

/-- A sound tree stays sound if it stays well-formed. -/
theorem sound (h : t.KeepsAbove t') (hsound : t.Sound) (hwellFormed : t'.WellFormed) :
    t'.Sound where
  toWellFormed := hwellFormed
  above_root := fun directory hdirectory => by
    obtain ⟨old, hold, _⟩ := hsound.root_stands
    obtain ⟨kept, hkept, hparent⟩ := h.directory_of root old hold
    rw [hdirectory] at hkept
    rw [Option.some.inj hkept, hparent]
    exact hsound.above_root old hold

end KeepsAbove

/-! ## Single changes -/

/-- A directory in the place of one with the same directory above it. -/
theorem keepsAbove_set (hdirectory : t.directory? id = some directory) {other : Directory}
    (hparent : other.parent = directory.parent) : t.KeepsAbove (t.set id (.directory other)) := by
  refine ⟨fun node found hfound => ?_⟩
  by_cases hself : node = id
  · subst hself
    obtain rfl : directory = found := Option.some.inj (hdirectory.symm.trans hfound)
    have hlt : node < t.size := lt_size_of_node? (node?_of_directory? hdirectory)
    exact ⟨other, by rw [directory?, node?_set_self t hlt], hparent⟩
  · refine ⟨found, ?_, rfl⟩
    rw [directory?_eq_bind, node?_set_of_ne t hself, ← directory?_eq_bind, hfound]

/-- A directory keeps the one above it where it is detached. -/
theorem directory?_bind_detached {found : Directory} (h : t.directory? id = some found) :
    ∃ kept, ((t.node? id).map detached).bind Node.directory? = some kept ∧
      kept.parent = found.parent := by
  refine ⟨{ found with entries := {}, removed := true }, ?_, rfl⟩
  rw [node?_of_directory? h]
  rfl

/-- A node that is detached changes no directory but itself. -/
theorem keepsAbove_detached {node : Node} (hnode : t.node? id = some node) :
    t.KeepsAbove (t.set id (detached node)) := by
  refine ⟨fun other found hfound => ?_⟩
  by_cases hself : other = id
  · subst hself
    obtain ⟨kept, hkept, hparent⟩ := directory?_bind_detached hfound
    refine ⟨kept, ?_, hparent⟩
    rw [directory?_eq_bind, node?_set_self t (lt_size_of_node? hnode)]
    rwa [hnode] at hkept
  · refine ⟨found, ?_, rfl⟩
    rw [directory?_eq_bind, node?_set_of_ne t hself, ← directory?_eq_bind, hfound]

/-- A file with another content changes no directory. -/
theorem keepsAbove_setFile {old content : Sparse} (hfile : t.content? id = some old) :
    t.KeepsAbove (t.set id (.file content)) where
  directory_of := fun _ found hfound => ⟨found, by rwa [directory?_setFile hfile], rfl⟩

/-- Writing to a file changes no directory. -/
theorem keepsAbove_write (t : Tree) (id : NodeId) (offset : Nat) (bytes : List UInt8) :
    t.KeepsAbove (t.write id offset bytes) := by
  unfold write
  split
  · exact keepsAbove_setFile ‹_›
  · exact .refl t

/-- A new node changes no directory but the one that it is put in, which stays where it is. -/
theorem keepsAbove_addNode (t : Tree) (place : NodeId) (name : String) (node : Node) :
    t.KeepsAbove (t.addNode place name node) := by
  have hpush : t.KeepsAbove (t.push node) :=
    ⟨fun id found hfound => ⟨found, directory?_push_of_some hfound node, rfl⟩⟩
  unfold addNode addEntry
  split
  · rename_i hplace
    exact hpush.trans (keepsAbove_set hplace rfl)
  · exact hpush

/-- An entry that is dropped changes no directory but the one that it was in and its own. -/
theorem keepsAbove_dropEntry (t : Tree) (place : NodeId) (name : String) (id : NodeId) :
    t.KeepsAbove (t.dropEntry place name id) := by
  unfold dropEntry
  cases hnode : t.node? id with
  | none =>
    dsimp only
    split
    · rename_i hplace
      exact keepsAbove_set hplace rfl
    · exact .refl t
  | some node =>
    have hdetached := keepsAbove_detached hnode
    dsimp only
    split
    · rename_i hplace
      exact hdetached.trans (keepsAbove_set hplace rfl)
    · exact hdetached

/-- What is detached when a directory is cleared stays where it is, and so does the directory. -/
theorem keepsAbove_clear (t : Tree) (id : NodeId) : t.KeepsAbove (t.clear id) := by
  have hdetaches : t.KeepsAbove ⟨t.nodes.mapIdx fun i node =>
      if (t.below t.size id).contains i then detached node else node⟩ := by
    refine ⟨fun other found hfound => ?_⟩
    have hnode := node?_of_directory? hfound
    unfold node? at hnode
    rw [directory?_eq_bind]
    simp only [node?, List.getElem?_mapIdx, hnode, Option.map_some, Option.bind_some]
    split
    · exact ⟨_, rfl, rfl⟩
    · exact ⟨_, rfl, rfl⟩
  unfold clear
  dsimp only
  split
  · rename_i hplace
    exact hdetaches.trans (keepsAbove_set hplace rfl)
  · exact hdetaches

/-! ## Requests -/

/-- Making a node changes no directory but the one that it is made in. -/
theorem keepsAbove_makeNode {node : NodeId → Node} (hmade : t.makeNode here text node = .ok t') :
    t.KeepsAbove t' := by
  unfold makeNode at hmade
  obtain ⟨last, _, hmade⟩ := exists_ok_of_bind hmade
  split at hmade
  · cases hmade
  · obtain ⟨arrival, _, hmade⟩ := exists_ok_of_bind hmade
    split at hmade
    · cases hmade
    · cases hmade
      exact keepsAbove_addNode ..

/-- Making a link changes no directory but the one that it is made in. -/
theorem keepsAbove_makeLink {target : String} (hmade : t.makeLink here text target = .ok t') :
    t.KeepsAbove t' := by
  unfold makeLink at hmade
  split at hmade
  · cases hmade
  · split at hmade
    · cases hmade
    · obtain ⟨made, hnode, hmade⟩ := exists_ok_of_bind hmade
      split at hmade
      · cases hmade
      · cases hmade
        exact keepsAbove_makeNode hnode

/-- Writing a whole file changes no directory but the one that it is made in. -/
theorem keepsAbove_writeFile {content : List UInt8}
    (hwritten : t.writeFile here text content = .ok (t', id)) : t.KeepsAbove t' := by
  unfold writeFile at hwritten
  obtain ⟨⟨opened, file⟩, hopened, hwritten⟩ := exists_ok_of_bind hwritten
  cases hwritten
  refine KeepsAbove.trans ?_ (keepsAbove_write ..)
  unfold openEmpty at hopened
  obtain ⟨steps, _, hopened⟩ := exists_ok_of_bind hopened
  obtain ⟨arrival, _, hopened⟩ := exists_ok_of_bind hopened
  split at hopened
  · cases hopened
    exact keepsAbove_addNode ..
  · split at hopened
    · rename_i hfile
      cases hopened
      exact keepsAbove_setFile hfile
    · cases hopened

/-- Making a directory, unless it is there. -/
theorem keepsAbove_ensureLast (t : Tree) (here : NodeId) (path : Path) :
    t.KeepsAbove (t.ensureLast here path).1 := by
  unfold ensureLast
  split
  · exact keepsAbove_makeNode ‹_›
  · exact .refl t
  · exact .refl t

/-- Making a directory with some above it. -/
theorem keepsAbove_ensureWithin (t : Tree) (here : NodeId) (depth : Nat) (path : Path) :
    t.KeepsAbove (t.ensureWithin here depth path).1 := by
  induction depth generalizing path with
  | zero => exact keepsAbove_ensureLast t here path
  | succ depth ih =>
    have habove := ih path.parent
    unfold ensureWithin
    split
    · exact keepsAbove_makeNode ‹_›
    · split
      · rename_i heq
        rw [heq] at habove
        exact habove.trans (keepsAbove_ensureLast ..)
      · rename_i heq
        rwa [heq] at habove
    · exact .refl t

/-- Making a directory from its text, unless it is there. -/
theorem keepsAbove_provideLast (t : Tree) (here : NodeId) (cs : List Char) :
    t.KeepsAbove (t.provideLast here cs).1 := by
  unfold provideLast
  split
  · exact .refl t
  · dsimp only
    split
    · exact keepsAbove_makeNode ‹_›
    · split <;> exact .refl t

/-- Making a directory after some above it. -/
theorem keepsAbove_provideWithin (t : Tree) (here : NodeId) (depth : Nat) (cs : List Char) :
    t.KeepsAbove (t.provideWithin here depth cs).1 := by
  induction depth generalizing cs with
  | zero => exact keepsAbove_provideLast t here cs
  | succ depth ih =>
    have habove := ih (aboveAndLast cs).1
    unfold provideWithin
    dsimp only
    split
    · exact keepsAbove_provideLast t here cs
    · split
      · exact habove
      · split
        · exact habove
        · exact habove.trans (keepsAbove_provideLast ..)
      · split
        · exact habove
        · exact habove.trans (keepsAbove_provideLast ..)
      · exact habove

/-- Taking a name out. -/
theorem keepsAbove_unlink (hdone : t.unlink here text = .ok t') : t.KeepsAbove t' := by
  unfold unlink at hdone
  obtain ⟨last, _, hdone⟩ := exists_ok_of_bind hdone
  split at hdone
  · obtain ⟨arrival, _, hdone⟩ := exists_ok_of_bind hdone
    split at hdone
    · split at hdone
      · cases hdone
      · split at hdone
        · cases hdone
        · cases hdone
          exact keepsAbove_dropEntry ..
    · cases hdone
  · cases hdone

/-- Taking an empty directory out. -/
theorem keepsAbove_removeDirectory (hdone : t.removeDirectory here text = .ok t') :
    t.KeepsAbove t' := by
  unfold removeDirectory at hdone
  obtain ⟨last, _, hdone⟩ := exists_ok_of_bind hdone
  split at hdone
  · obtain ⟨arrival, _, hdone⟩ := exists_ok_of_bind hdone
    split at hdone
    · split at hdone
      · split at hdone
        · cases hdone
          exact keepsAbove_dropEntry ..
        · cases hdone
      · cases hdone
    · cases hdone
  · cases hdone
  · cases hdone
  · cases hdone

/-- Taking away what is at a path. -/
theorem keepsAbove_remove (t : Tree) (here : NodeId) (text : String) :
    t.KeepsAbove (t.remove here text).1 := by
  rcases t.remove_tree_cases here text with (hsame | hdone) | ⟨id, _, _, hcleared | hdone⟩
  · rw [hsame]
    exact .refl t
  · exact keepsAbove_unlink hdone
  · rw [hcleared]
    exact keepsAbove_clear t id
  · exact (keepsAbove_clear t id).trans (keepsAbove_removeDirectory hdone)

end Tree

end Fixtures
