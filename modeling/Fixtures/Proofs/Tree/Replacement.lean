import Fixtures.Proofs.Tree.Growth

/-!
# Writing files behind links

A file that is written at a path is found there afterwards, whichever links and ways up the path
has: the walk that opened it leads to it again. There was a file or nothing at its place, and
nothing has changed but what is shown where the file has a name.
-/

namespace Fixtures.Tree

variable {t t' : Tree} {here id above : NodeId} {place : List String} {name text : String}
  {content : List UInt8}

/-- A file has been put in the place of another one or of nothing, and nothing else has changed. -/
structure Replaced (before after : Tree) (place : List String) (content : List UInt8)
    (id : NodeId) : Prop extends Stored before after place content id where
  /-- The tree is sound. -/
  sound : after.Sound
  /-- There was nothing or a file. -/
  place_cases : before.at? place = none ∨ ∃ old, before.at? place = some (.file old)
  /-- No other file has been made or has changed, also of those that have no place. -/
  content?_eq : ∀ other, other ≠ id → after.content? other = before.content? other
  /-- No link has been made or has changed, also of those that have no place. -/
  target?_eq : ∀ other, after.target? other = before.target? other
  /-- Walks to a node lead to it again. -/
  course_of : ∀ links here steps node, before.Course links here steps (.node node) →
    after.Course links here steps (.node node)

/-- A directory is at another place than the file. -/
theorem Replaced.place_ne {other : List String} (h : t.Replaced t' place content id)
    (hshown : t.at? other = some .directory) : other ≠ place := by
  rintro rfl
  have hcases := h.place_cases
  rw [hshown] at hcases
  rcases hcases with hnone | ⟨old, hold⟩
  · cases hnone
  · cases hold

namespace Sound

/-- A file that is there gets another content. -/
theorem replaced_set (h : t.Sound) (hid : t.descend place = some id) {old : Sparse}
    (hfile : t.content? id = some old) (content : Sparse) :
    t.Replaced (t.set id (.file content)) place content.toList id where
  toStored := h.stored_set hid hfile content
  sound := h.setFile hfile
  place_cases := Or.inr ⟨old.toList, at?_eq_file_iff.mpr ⟨id, old, hid, hfile, rfl⟩⟩
  content?_eq := fun other hother => by rw [content?_setFile hfile, if_neg hother]
  target?_eq := target?_setFile hfile
  course_of := fun _ _ _ _ hcourse => hcourse.setFile hfile

/-- A file that is missing is put at its place. -/
theorem replaced_addNode (h : t.Sound) (hid : t.descend place = some above)
    (hvacant : t.Vacant above name) (content : Sparse) :
    t.Replaced (t.addNode above name (.file content)) (place ++ [name]) content.toList t.size := by
  obtain ⟨directory, hdirectory⟩ := hvacant.exists_directory
  exact {
    toStored := h.stored_addNode hid hdirectory hvacant.isName hvacant.child?_eq content
    sound := h.addNode hdirectory hvacant.isName (.file content)
    place_cases := by
      left
      rw [h.at?_eq_none_iff, descend_append_singleton, hid, Option.bind_some, hvacant.child?_eq]
    content?_eq := fun other hother => by rw [content?_addNode hdirectory, if_neg hother]
    target?_eq := target?_addNode_of_not_link hdirectory rfl name
    course_of := fun _ _ _ _ hcourse =>
      hcourse.addNode (.file content) hdirectory hvacant.child?_eq rfl }

end Sound

/-- What is written to an empty file is its content. -/
theorem Replaced.write (h : t.Replaced t' place [] id) (content : List UInt8) :
    t.Replaced (t'.write id 0 content) place content id := by
  obtain ⟨kept, hkept, _⟩ := h.exists_content
  have hwritten : t'.write id 0 content = t'.set id (.file (kept.overwrite 0 content)) := by
    simp only [Tree.write, hkept]
  have hset := h.sound.replaced_set h.descend_eq hkept (kept.overwrite 0 content)
  rw [← hwritten] at hset
  exact {
    toStored := h.toStored.write content
    sound := hset.sound
    place_cases := h.place_cases
    content?_eq := fun other hother => by
      rw [hset.content?_eq other hother, h.content?_eq other hother]
    target?_eq := fun other => by rw [hset.target?_eq, h.target?_eq]
    course_of := fun links here steps node hcourse =>
      hset.course_of links here steps node (h.course_of links here steps node hcourse) }

/-- A walk begins at a place. -/
theorem Placed.origin (h : t.Placed here) (cs : List Char) : t.Placed (origin cs here) := by
  unfold Tree.origin
  split
  · exact t.placed_root
  · exact h

namespace Sound

/-- An empty file that has been opened is at the path. -/
theorem openEmpty_replaced (h : t.Sound) (hhere : t.Placed here) (hnul : '\x00' ∉ text.toList)
    (hopened : t.openEmpty here text = .ok (t', id)) :
    ∃ place steps, t.Replaced t' place [] id ∧ Tree.steps text = .ok steps ∧
      t'.Course linkLimit (origin text.toList here) steps (.node id) := by
  unfold openEmpty at hopened
  obtain ⟨steps, hsteps, hopened⟩ := exists_ok_of_bind hopened
  obtain ⟨arrival, hwalk, hopened⟩ := exists_ok_of_bind hopened
  have hcourse := course_of_walk hwalk
  obtain ⟨place, hplace⟩ := h.placed_of_course hcourse (hhere.origin text.toList)
  split at hopened
  · rename_i above name
    cases hopened
    have hvacant := h.vacant_of_walk (isPlain_of_steps hnul hsteps) hwalk
    obtain ⟨directory, hdirectory⟩ := hvacant.exists_directory
    have hgrown := hcourse.addNode (.file .empty) hdirectory hvacant.child?_eq rfl
    rw [Arrival.grown, if_pos rfl] at hgrown
    exact ⟨_, steps, h.replaced_addNode hplace hvacant .empty, hsteps, hgrown⟩
  · split at hopened
    · rename_i old hfile
      cases hopened
      exact ⟨place, steps, h.replaced_set hplace hfile .empty, hsteps, hcourse.setFile hfile⟩
    · cases hopened

/-- **Writing a file.** A file that has been written is at the path, with what was written, and
nothing else has changed. -/
theorem writeFile_replaced (h : t.Sound) (hhere : t.Placed here) (hnul : '\x00' ∉ text.toList)
    (hwritten : t.writeFile here text content = .ok (t', id)) :
    (∃ place, t.Replaced t' place content id) ∧ t'.lookUp here text = .ok id := by
  unfold writeFile at hwritten
  obtain ⟨⟨opened, file⟩, hopened, hwritten⟩ := exists_ok_of_bind hwritten
  cases hwritten
  obtain ⟨place, steps, hreplaced, hsteps, hcourse⟩ := h.openEmpty_replaced hhere hnul hopened
  obtain ⟨kept, hkept, _⟩ := hreplaced.exists_content
  refine ⟨⟨place, hreplaced.write content⟩, lookUp_eq_ok_iff_course.mpr ⟨steps, hsteps, ?_⟩⟩
  simp only [Tree.write, hkept]
  exact hcourse.setFile hkept

/-- **Opening a file again.** A file that has been written can be opened at the same path. -/
theorem openFile_of_writeFile (h : t.Sound) (hhere : t.Placed here) (hnul : '\x00' ∉ text.toList)
    (hwritten : t.writeFile here text content = .ok (t', id)) :
    t'.openFile here text = .ok id := by
  obtain ⟨⟨place, hreplaced⟩, hlookUp⟩ := h.writeFile_replaced hhere hnul hwritten
  obtain ⟨kept, hkept, _⟩ := hreplaced.exists_content
  unfold openFile
  rw [hlookUp]
  simp only [bind, Except.bind, hkept]

end Sound

end Fixtures.Tree
