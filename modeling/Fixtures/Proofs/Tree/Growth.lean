import Fixtures.Proofs.Tree.Course
import Fixtures.Proofs.Tree.Writing

/-!
# Walks in a growing tree

What is put into a tree, and what is written to a file, is in nobody's way: a walk arrives where it
did, except that it now arrives at the new node where it found the name missing.
-/

namespace Fixtures

namespace Tree

variable {t t' : Tree} {links : Nat} {here id place : NodeId} {step : Step} {steps : List Step}
  {arrival : Arrival} {name : String} {names : List String} {directory : Directory} {node : Node}

/-! ## Writing to a file -/

section SetFile

variable {old content : Sparse}

/-- A file has the content that was put in, and no other file has changed. -/
theorem content?_setFile (hfile : t.content? id = some old) (other : NodeId) :
    (t.set id (.file content)).content? other =
      if other = id then some content else t.content? other := by
  rw [content?_eq_bind, node?_setFile hfile]
  split
  · rfl
  · rw [content?_eq_bind]

/-- Writing to a file changes no course. -/
theorem Course.setFile (hfile : t.content? id = some old)
    (h : t.Course links here steps arrival) :
    (t.set id (.file content)).Course links here steps arrival := by
  induction h with
  | here => exact .here
  | vacant hhere henter => exact .vacant (by rwa [directory?_setFile hfile]) henter
  | pass hhere henter htarget _ ih =>
    exact .pass (by rwa [directory?_setFile hfile]) henter (by rwa [target?_setFile hfile]) ih
  | link hhere henter htarget _ ih =>
    exact .link (by rwa [directory?_setFile hfile]) henter (by rwa [target?_setFile hfile]) ih

/-- A tree stays sound when a file is written to. -/
theorem Sound.setFile (h : t.Sound) (hfile : t.content? id = some old) :
    (t.set id (.file content)).Sound where
  toWellFormed := h.toWellFormed.setFile hfile
  above_root := fun directory => by
    rw [directory?_setFile hfile]
    exact h.above_root directory

end SetFile

/-! ## Putting in a node -/

section AddNode

variable (hplace : t.directory? place = some directory)

include hplace

/-- A tree stays sound when a node is put at a vacant place of a directory. -/
theorem Sound.addNode (h : t.Sound) (hname : IsName name) (hfresh : node.FreshIn place) :
    (t.addNode place name node).Sound where
  toWellFormed := h.toWellFormed.addNode hplace hname hfresh
  above_root := fun found hfound => by
    have hroot : root ≠ t.size := Nat.ne_of_lt (h.lt_size_of_descend t.descend_nil)
    rw [directory?_addNode hplace, if_neg hroot] at hfound
    split at hfound
    · rename_i hself
      rw [← Option.some.inj hfound]
      exact h.above_root directory (hself ▸ hplace)
    · exact h.above_root found hfound

end AddNode

/-- Where a walk arrives after a node has been put at a vacant place: at the node, if it found the
place vacant before. -/
def Arrival.grown (arrival : Arrival) (place : NodeId) (name : String) (new : NodeId) : Arrival :=
  if arrival = .vacant place name then .node new else arrival

/-- A step finds in a directory with one more entry what it found before, or the new entry. -/
theorem enter_insert {new : NodeId} (hmissing : directory.entries.find? name = none)
    (henter : enter directory place step = .ok arrival) :
    enter { directory with entries := directory.entries.insert name new } place step =
      .ok (arrival.grown place name new) := by
  have hnode (id : NodeId) : (Arrival.node id).grown place name new = .node id := rfl
  cases step with
  | stay =>
    cases henter
    rfl
  | finalSlash =>
    cases henter
    rfl
  | up =>
    cases henter
    rfl
  | name wanted =>
    simp only [enter] at henter ⊢
    split at henter
    · cases henter
    · rename_i hkept
      rw [if_neg hkept]
      split at henter
      · cases henter
      · rename_i hshort
        rw [if_neg hshort]
        by_cases hname : wanted = name
        · subst hname
          rw [hmissing] at henter
          cases henter
          rw [Registry.find?_insert_self, Arrival.grown, if_pos rfl]
        · rw [Registry.find?_insert_of_ne _ hname]
          split at henter
          · cases henter
            rw [hnode]
          · cases henter
            have hother : Arrival.vacant place wanted ≠ .vacant place name := by
              simpa using hname
            rw [Arrival.grown, if_neg hother]

/-- A directory has one more entry, or is as it was: a step in it finds the new entry or what it
found before. -/
theorem exists_enter_addNode (node : Node) (hplace : t.directory? place = some directory)
    (hmissing : t.child? place name = none) {found : Directory}
    (hhere : t.directory? here = some found) (henter : enter found here step = .ok arrival) :
    ∃ after, (t.addNode place name node).directory? here = some after ∧
      enter after here step = .ok (arrival.grown place name t.size) := by
  have hold : here ≠ t.size := Nat.ne_of_lt (lt_size_of_node? (node?_of_directory? hhere))
  rw [directory?_addNode hplace, if_neg hold]
  by_cases hself : here = place
  · subst hself
    obtain rfl : directory = found := Option.some.inj (hplace.symm.trans hhere)
    rw [child?, hplace, Option.bind_some] at hmissing
    rw [if_pos rfl]
    exact ⟨_, rfl, enter_insert hmissing henter⟩
  · rw [if_neg hself]
    refine ⟨found, hhere, ?_⟩
    have hother : arrival ≠ .vacant place name := by
      rintro rfl
      exact hself (step_of_enter henter).1
    rw [henter, Arrival.grown, if_neg hother]

/-- **Walks in a growing tree.** A walk arrives where it did, or at the new node where it found its
place vacant. -/
theorem Course.addNode (h : t.Course links here steps arrival) (node : Node)
    (hplace : t.directory? place = some directory) (hmissing : t.child? place name = none)
    (hnode : node.target? = none) :
    (t.addNode place name node).Course links here steps (arrival.grown place name t.size) := by
  have htargets := target?_addNode_of_not_link hplace hnode name
  induction h with
  | here => exact .here
  | @vacant links here found _ step missing hhere henter =>
    obtain ⟨after, hafter, hstep⟩ :=
      exists_enter_addNode node hplace hmissing hhere henter
    rw [Arrival.grown] at hstep ⊢
    split at hstep
    · rename_i hnew
      have hnot : (t.addNode place name node).target? t.size = none := by
        rw [htargets, target?_eq_bind, node?_of_size_le t (Nat.le_refl _)]
        rfl
      rw [if_pos hnew]
      exact .pass hafter hstep hnot .here
    · rename_i hother
      rw [if_neg hother]
      exact .vacant hafter hstep
  | pass hhere henter htarget _ ih =>
    obtain ⟨after, hafter, hstep⟩ :=
      exists_enter_addNode node hplace hmissing hhere henter
    exact .pass hafter hstep (by rwa [htargets]) ih
  | link hhere henter htarget _ ih =>
    obtain ⟨after, hafter, hstep⟩ :=
      exists_enter_addNode node hplace hmissing hhere henter
    exact .link hafter hstep (by rwa [htargets]) ih

end Tree

end Fixtures
