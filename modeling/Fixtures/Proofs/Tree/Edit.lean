import Fixtures.Proofs.Path
import Fixtures.Proofs.Tree.Entries
import Fixtures.Proofs.Tree.Walk
import Fixtures.Tree.Ensure

/-!
# Edits keep trees well-formed

A node is only put at a vacant place, under a name that can be looked up, and what is taken away
leaves no name behind that leads to it. So a tree that is well-formed stays so, whatever is made,
written and removed in it.
-/

namespace Fixtures.Tree

/-- What succeeds has succeeded at its first part. -/
theorem exists_ok_of_bind {ε α β : Type} {first : Except ε α} {next : α → Except ε β} {result : β}
    (h : first >>= next = .ok result) : ∃ a, first = .ok a ∧ next a = .ok result := by
  cases first with
  | error fault => cases h
  | ok a => exact ⟨a, rfl, h⟩

variable {t t' : Tree}

/-! ## Vacant places -/

/-- A directory that does not have a name. -/
structure Vacant (t : Tree) (place : NodeId) (name : String) : Prop where
  /-- The directory is there. -/
  exists_directory : ∃ directory, t.directory? place = some directory
  /-- The name is missing in it. -/
  child?_eq : t.child? place name = none
  /-- Something could have the name. -/
  isName : IsName name

/-- A name that the step takes can be looked up, unless it is too long. -/
def Step.IsPlain : Step → Prop
  | .name wanted => Path.IsPart wanted ∧ wanted ≠ ".." ∧ '\x00' ∉ wanted.toList
  | .stay | .up | .finalSlash => True

/-- The steps of a text without a NUL are plain. -/
theorem isPlain_of_mem_stepsOfChars {cs : List Char} (hnul : '\x00' ∉ cs) :
    ∀ step ∈ stepsOfChars cs, step.IsPlain := by
  intro step hstep
  cases step with
  | name name =>
    obtain ⟨hpart, hup⟩ := mem_partsOfChars_of_name hstep
    exact ⟨Path.isPart_of_mem_partsOfChars hpart, hup, fun hmem =>
      hnul (Path.mem_of_mem_partsOfChars hpart hmem)⟩
  | stay => trivial
  | up => trivial
  | finalSlash => trivial

/-- A step finds a place vacant where its name is missing. -/
theorem vacant_of_enter {here place : NodeId} {directory : Directory} {step : Step} {name : String}
    (hhere : t.directory? here = some directory) (hplain : step.IsPlain)
    (henter : enter directory here step = .ok (.vacant place name)) : t.Vacant place name := by
  cases step with
  | name wanted =>
    simp only [enter] at henter
    split at henter
    · cases henter
    · split at henter
      · cases henter
      · split at henter
        · cases henter
        · rename_i hlong _ hmissing
          cases henter
          obtain ⟨hpart, hup, hnul⟩ := hplain
          exact ⟨⟨directory, hhere⟩, by rw [child?, hhere, Option.bind_some, hmissing],
            ⟨hpart, hup, hnul, Nat.le_of_not_lt hlong⟩⟩
  | stay => cases henter
  | up => cases henter
  | finalSlash => cases henter

/-- A walk up to the next link finds a place vacant only where a name is missing, if the walk behind
the link does so. -/
theorem WellFormed.vacant_of_passAlong (h : t.WellFormed) {creating : Bool}
    {follow : NodeId → List Step → Except Fault Arrival} {place : NodeId} {name : String}
    (hfollow : ∀ here steps, (∀ step ∈ steps, step.IsPlain) →
      follow here steps = .ok (.vacant place name) → t.Vacant place name)
    {here : NodeId} {steps : List Step} (hplain : ∀ step ∈ steps, step.IsPlain)
    (hwalk : t.passAlong creating follow here steps = .ok (.vacant place name)) :
    t.Vacant place name := by
  induction steps generalizing here with
  | nil => cases hwalk
  | cons step rest ih =>
    have hrest : ∀ step ∈ rest, step.IsPlain := fun step hstep =>
      hplain step (List.mem_cons_of_mem _ hstep)
    unfold passAlong at hwalk
    split at hwalk
    · cases hwalk
    · rename_i directory hhere
      split at hwalk
      · cases hwalk
      · split at hwalk
        · cases hwalk
        · rename_i found missing henter
          split at hwalk
          · cases hwalk
            exact vacant_of_enter hhere (hplain step List.mem_cons_self) henter
          · cases hwalk
        · rename_i next henter
          split at hwalk
          · rename_i target htarget
            refine hfollow _ _ (fun step hstep => ?_) hwalk
            rcases List.mem_append.mp hstep with hlink | hlater
            · exact isPlain_of_mem_stepsOfChars (h.target_nul next target htarget) step hlink
            · exact hrest step hlater
          · exact ih hrest hwalk

/-- A walk finds a place vacant only where a name is missing. -/
theorem WellFormed.vacant_of_walk (h : t.WellFormed) {creating : Bool} {links : Nat}
    {here place : NodeId} {steps : List Step} {name : String}
    (hplain : ∀ step ∈ steps, step.IsPlain)
    (hwalk : t.walk creating links here steps = .ok (.vacant place name)) :
    t.Vacant place name := by
  induction links generalizing here steps with
  | zero => exact h.vacant_of_passAlong (fun _ _ _ hfollow => by cases hfollow) hplain hwalk
  | succ links ih => exact h.vacant_of_passAlong (fun _ _ => ih) hplain hwalk

/-- The steps of a path's text are plain, if there is no NUL in it. -/
theorem isPlain_of_steps {text : String} {found : List Step} (hnul : '\x00' ∉ text.toList)
    (hsteps : steps text = .ok found) : ∀ step ∈ found, step.IsPlain := by
  unfold steps at hsteps
  split at hsteps
  · cases hsteps
  · split at hsteps
    · cases hsteps
    · cases hsteps
      exact isPlain_of_mem_stepsOfChars hnul

/-- The last step of a path without a NUL is plain, and it is taken in a directory. -/
theorem directory?_of_lastStep? {here above : NodeId} {text : String} {directory : Directory}
    {step : Step} (hnul : '\x00' ∉ text.toList)
    (hlast : t.lastStep? here text = .ok (some (above, directory, step))) :
    t.directory? above = some directory ∧ step.IsPlain := by
  unfold lastStep? at hlast
  obtain ⟨found, hsteps, hlast⟩ := exists_ok_of_bind hlast
  dsimp only at hlast
  split at hlast
  · cases hlast
  · rename_i last hfound
    obtain ⟨arrival, _, hlast⟩ := exists_ok_of_bind hlast
    split at hlast
    · cases hlast
    · split at hlast
      · cases hlast
      · rename_i hdirectory
        cases hlast
        have hmem := List.mem_of_getLast? hfound
        exact ⟨hdirectory, isPlain_of_steps hnul hsteps step (List.mem_of_mem_filter hmem)⟩

/-! ## Making and writing -/

/-- A node is made at a vacant place. -/
theorem vacant_of_makeNode {here : NodeId} {text : String} {node : NodeId → Node}
    (hnul : '\x00' ∉ text.toList) (hmade : t.makeNode here text node = .ok t') :
    ∃ place name, t.Vacant place name ∧ t' = t.addNode place name (node place) := by
  unfold makeNode at hmade
  obtain ⟨last, hlast, hmade⟩ := exists_ok_of_bind hmade
  split at hmade
  · cases hmade
  · rename_i above directory step
    obtain ⟨hdirectory, hplain⟩ := directory?_of_lastStep? hnul hlast
    obtain ⟨arrival, henter, hmade⟩ := exists_ok_of_bind hmade
    split at hmade
    · cases hmade
    · rename_i place name
      exact ⟨place, name, vacant_of_enter hdirectory hplain henter, (Except.ok.inj hmade).symm⟩

namespace WellFormed

/-- A tree stays well-formed when a node is put at a vacant place. -/
theorem addNode_of_vacant (h : t.WellFormed) {place : NodeId} {name : String} {node : Node}
    (hvacant : t.Vacant place name) (hfresh : node.FreshIn place) :
    (t.addNode place name node).WellFormed := by
  obtain ⟨directory, hdirectory⟩ := hvacant.exists_directory
  exact h.addNode hdirectory hvacant.isName hfresh

/-- Making a directory keeps a tree well-formed. -/
theorem makeDirectory (h : t.WellFormed) {here : NodeId} {text : String}
    (hnul : '\x00' ∉ text.toList) (hmade : t.makeDirectory here text = .ok t') :
    t'.WellFormed := by
  obtain ⟨place, name, hvacant, rfl⟩ := vacant_of_makeNode hnul hmade
  exact h.addNode_of_vacant hvacant .directory

/-- Making a link keeps a tree well-formed. -/
theorem makeLink (h : t.WellFormed) {here : NodeId} {text target : String}
    (hnul : '\x00' ∉ text.toList) (htarget : '\x00' ∉ target.toList)
    (hmade : t.makeLink here text target = .ok t') : t'.WellFormed := by
  unfold Tree.makeLink at hmade
  split at hmade
  · cases hmade
  · split at hmade
    · cases hmade
    · obtain ⟨made, hnode, hmade⟩ := exists_ok_of_bind hmade
      split at hmade
      · cases hmade
      · cases hmade
        obtain ⟨place, name, hvacant, rfl⟩ := vacant_of_makeNode hnul hnode
        exact h.addNode_of_vacant hvacant (.link htarget)

/-- Opening an empty file keeps a tree well-formed. -/
theorem openEmpty (h : t.WellFormed) {here id : NodeId} {text : String}
    (hnul : '\x00' ∉ text.toList) (hopened : t.openEmpty here text = .ok (t', id)) :
    t'.WellFormed := by
  unfold Tree.openEmpty at hopened
  obtain ⟨found, hsteps, hopened⟩ := exists_ok_of_bind hopened
  obtain ⟨arrival, hwalk, hopened⟩ := exists_ok_of_bind hopened
  split at hopened
  · cases hopened
    exact h.addNode_of_vacant (h.vacant_of_walk (isPlain_of_steps hnul hsteps) hwalk)
      (.file .empty)
  · split at hopened
    · rename_i hfile
      cases hopened
      exact h.setFile hfile
    · cases hopened

/-- Writing to a file keeps a tree well-formed. -/
theorem write (h : t.WellFormed) (id : NodeId) (offset : Nat) (bytes : List UInt8) :
    (t.write id offset bytes).WellFormed := by
  unfold Tree.write
  split
  · rename_i hfile
    exact h.setFile hfile
  · exact h

/-- Writing a whole file keeps a tree well-formed. -/
theorem writeFile (h : t.WellFormed) {here id : NodeId} {text : String} {content : List UInt8}
    (hnul : '\x00' ∉ text.toList) (hwritten : t.writeFile here text content = .ok (t', id)) :
    t'.WellFormed := by
  unfold Tree.writeFile at hwritten
  obtain ⟨⟨middle, file⟩, hopened, hwritten⟩ := exists_ok_of_bind hwritten
  cases hwritten
  exact (h.openEmpty hnul hopened).write id 0 content

end WellFormed

/-! ## Directories with those above them -/

namespace WellFormed

/-- Making a directory, unless it is there, keeps a tree well-formed. -/
theorem ensureLast (h : t.WellFormed) {here : NodeId} {path : Path}
    (hnul : '\x00' ∉ path.toText.toList) : (t.ensureLast here path).1.WellFormed := by
  unfold Tree.ensureLast
  split
  · rename_i hmade
    exact h.makeDirectory hnul hmade
  · exact h
  · exact h

/-- Making a directory with some above it keeps a tree well-formed. -/
theorem ensureWithin (h : t.WellFormed) (here : NodeId) {depth : Nat} {path : Path}
    (hnul : ∀ part ∈ path.parts, '\x00' ∉ part.toList) :
    (t.ensureWithin here depth path).1.WellFormed := by
  induction depth generalizing path with
  | zero => exact h.ensureLast (path.nul_not_mem_toText hnul)
  | succ depth ih =>
    unfold Tree.ensureWithin
    split
    · rename_i hmade
      exact h.makeDirectory (path.nul_not_mem_toText hnul) hmade
    · have habove : ∀ part ∈ path.parent.parts, '\x00' ∉ part.toList := fun part hpart =>
        hnul part (List.dropLast_subset _ hpart)
      have hmade := ih habove
      split
      · rename_i heq
        rw [heq] at hmade
        exact hmade.ensureLast (path.nul_not_mem_toText hnul)
      · rename_i heq
        rwa [heq] at hmade
    · exact h

/-- Making a directory with all above it keeps a tree well-formed. -/
theorem ensure (h : t.WellFormed) (here : NodeId) {path : Path}
    (hnul : ∀ part ∈ path.parts, '\x00' ∉ part.toList) : (t.ensure here path).1.WellFormed :=
  h.ensureWithin here hnul

/-- Making a directory from its text, unless it is there, keeps a tree well-formed. -/
theorem provideLast (h : t.WellFormed) (here : NodeId) (cs : List Char) :
    (t.provideLast here cs).1.WellFormed := by
  unfold Tree.provideLast
  split
  · exact h
  · rename_i hnul
    dsimp only
    split
    · rename_i hmade
      exact h.makeDirectory (by simpa using hnul) hmade
    · split <;> exact h

/-- Making a directory after some above it keeps a tree well-formed. -/
theorem provideWithin (h : t.WellFormed) (here : NodeId) (depth : Nat) (cs : List Char) :
    (t.provideWithin here depth cs).1.WellFormed := by
  induction depth generalizing cs with
  | zero => exact h.provideLast here cs
  | succ depth ih =>
    unfold Tree.provideWithin
    dsimp only
    split
    · exact h.provideLast here cs
    · have hmade := ih (aboveAndLast cs).1
      split
      · exact hmade
      · split
        · exact hmade
        · exact hmade.provideLast here cs
      · split
        · exact hmade
        · exact hmade.provideLast here cs
      · exact hmade

end WellFormed

/-! ## Taking away -/

/-- Nodes have lost names, and directories that have been removed are under none any more. -/
structure Shrunk (before after : Tree) : Prop where
  /-- There are as many nodes. -/
  size_eq : after.size = before.size
  /-- The root is a directory. -/
  root_directory : ∃ directory, after.directory? root = some directory
  /-- Every name was there before. -/
  child_of : ∀ id name next, after.child? id name = some next → before.child? id name = some next
  /-- Every directory was there before, in the same place and with the names that are left. -/
  directory_of : ∀ id directory, after.directory? id = some directory →
    ∃ old, before.directory? id = some old ∧ directory.parent = old.parent ∧
      directory.entries.names.Sublist old.entries.names
  /-- A directory that has a place has not been removed. -/
  removed_of : ∀ id directory old, after.directory? id = some directory →
    before.directory? id = some old →
    (id = root ∨ ∃ holder name, after.child? holder name = some id) →
    directory.removed = old.removed
  /-- Every link was there before. -/
  target_of : ∀ id target, after.target? id = some target → before.target? id = some target

/-- A node that is a directory was one before. -/
theorem Shrunk.isSome_directory? (h : t.Shrunk t') {id : NodeId}
    (hdirectory : (t'.directory? id).isSome) : (t.directory? id).isSome := by
  obtain ⟨directory, hfound⟩ := Option.isSome_iff_exists.mp hdirectory
  obtain ⟨old, hold, _⟩ := h.directory_of id directory hfound
  rw [hold]
  rfl

/-- A tree stays well-formed when nodes lose their names. -/
theorem WellFormed.of_shrunk (h : t.WellFormed) (hshrunk : t.Shrunk t') : t'.WellFormed where
  root_stands := by
    obtain ⟨directory, hdirectory⟩ := hshrunk.root_directory
    obtain ⟨old, hold, hremoved⟩ := h.root_stands
    refine ⟨directory, hdirectory, ?_⟩
    rw [hshrunk.removed_of root directory old hdirectory hold (Or.inl rfl), hremoved]
  names_nodup := fun id directory hdirectory => by
    obtain ⟨old, hold, _, hnames⟩ := hshrunk.directory_of id directory hdirectory
    exact (h.names_nodup id old hold).sublist hnames
  isName := fun id name next hnext => h.isName id name next (hshrunk.child_of id name next hnext)
  child_inj := fun id name id' name' next hdirectory hnext hnext' =>
    h.child_inj id name id' name' next (hshrunk.isSome_directory? hdirectory)
      (hshrunk.child_of id name next hnext) (hshrunk.child_of id' name' next hnext')
  child_lt := fun id name next hdirectory hnext =>
    h.child_lt id name next (hshrunk.isSome_directory? hdirectory)
      (hshrunk.child_of id name next hnext)
  lt_size := fun id name next hnext => by
    rw [hshrunk.size_eq]
    exact h.lt_size id name next (hshrunk.child_of id name next hnext)
  stands := fun id name next directory hnext hdirectory => by
    obtain ⟨old, hold, hparent, _⟩ := hshrunk.directory_of next directory hdirectory
    have hremoved := hshrunk.removed_of next directory old hdirectory hold
      (Or.inr ⟨id, name, hnext⟩)
    rw [hparent, hremoved]
    exact h.stands id name next old (hshrunk.child_of id name next hnext) hold
  target_nul := fun id target htarget => h.target_nul id target (hshrunk.target_of id target htarget)

/-- A detached node is a directory exactly if it was one before, and then an empty one. -/
theorem directory?_detached (node : Node) :
    (detached node).directory? = node.directory?.map fun directory =>
      { directory with entries := {}, removed := true } := by
  cases node <;> rfl

/-- One directory has lost names, and some nodes have been detached. Nothing that is left leads to
those of them that are directories; a file may have another name. -/
structure Pruned (before after : Tree) (place : NodeId) (kept : Registry NodeId)
    (gone : List NodeId) : Prop where
  /-- There are as many nodes. -/
  size_eq : after.size = before.size
  /-- The directory was there before, with at least the names that are kept. -/
  exists_directory : ∃ directory, before.directory? place = some directory ∧
    (∀ name next, kept.find? name = some next → directory.entries.find? name = some next) ∧
    kept.names.Sublist directory.entries.names ∧
    after.directory? place = some { directory with entries := kept }
  /-- The directory is not detached. -/
  place_not_mem : place ∉ gone
  /-- The root is not detached. -/
  root_not_mem : root ∉ gone
  /-- A directory that is detached was only found in one that is detached, or under a lost name. -/
  lost : ∀ id ∈ gone, (before.directory? id).isSome → ∀ holder name,
    before.child? holder name = some id → holder ∈ gone ∨ holder = place ∧ kept.find? name = none
  /-- The nodes are detached. -/
  node?_of_mem : ∀ id ∈ gone, after.node? id = (before.node? id).map detached
  /-- All other nodes are as they were. -/
  node?_of_not_mem : ∀ id, id ≠ place → id ∉ gone → after.node? id = before.node? id

namespace Pruned

variable {place : NodeId} {kept : Registry NodeId} {gone : List NodeId}

/-- The directories afterwards. -/
theorem directory?_cases (h : t.Pruned t' place kept gone) {id : NodeId} {directory : Directory}
    (hdirectory : t'.directory? id = some directory) :
    ∃ old, t.directory? id = some old ∧
      ((id = place ∧ directory = { old with entries := kept }) ∨
        (id ∈ gone ∧ directory = { old with entries := {}, removed := true }) ∨
        (id ≠ place ∧ id ∉ gone ∧ directory = old)) := by
  by_cases hself : id = place
  · obtain ⟨old, hold, _, _, hnew⟩ := h.exists_directory
    rw [hself, hnew] at hdirectory
    rw [hself]
    exact ⟨old, hold, Or.inl ⟨rfl, (Option.some.inj hdirectory).symm⟩⟩
  · by_cases hgone : id ∈ gone
    · rw [directory?_eq_bind, h.node?_of_mem id hgone] at hdirectory
      obtain ⟨node, hnode, hfound⟩ := Option.bind_eq_some_iff.mp hdirectory
      obtain ⟨before, hbefore, rfl⟩ := Option.map_eq_some_iff.mp hnode
      rw [directory?_detached] at hfound
      obtain ⟨old, hold, rfl⟩ := Option.map_eq_some_iff.mp hfound
      refine ⟨old, ?_, Or.inr (Or.inl ⟨hgone, rfl⟩)⟩
      rw [directory?_eq_bind, hbefore, Option.bind_some, hold]
    · refine ⟨directory, ?_, Or.inr (Or.inr ⟨hself, hgone, rfl⟩)⟩
      rwa [directory?_eq_bind, h.node?_of_not_mem id hself hgone, ← directory?_eq_bind]
        at hdirectory

/-- An entry afterwards is one that was there, in a directory that is not detached. -/
theorem child?_cases (h : t.Pruned t' place kept gone) {id next : NodeId} {name : String}
    (hnext : t'.child? id name = some next) :
    t.child? id name = some next ∧ id ∉ gone ∧ (id = place → kept.find? name = some next) := by
  obtain ⟨directory, hdirectory, hfind⟩ := directory?_of_child? hnext
  obtain ⟨old, hold, hcases⟩ := h.directory?_cases hdirectory
  rcases hcases with ⟨hself, rfl⟩ | ⟨_, rfl⟩ | ⟨hself, hgone, rfl⟩
  · obtain ⟨found, hfound, hkept, _⟩ := h.exists_directory
    rw [hself, hfound] at hold
    obtain rfl : found = old := Option.some.inj hold
    refine ⟨?_, hself ▸ h.place_not_mem, fun _ => hfind⟩
    rw [hself, child?, hfound, Option.bind_some]
    exact hkept name next hfind
  · cases hfind
  · refine ⟨?_, hgone, fun heq => absurd heq hself⟩
    rw [child?, hold, Option.bind_some, hfind]

/-- Nodes have lost names, and no detached directory is under any. -/
theorem shrunk (h : t.Pruned t' place kept gone) (ht : t.WellFormed) : t.Shrunk t' where
  size_eq := h.size_eq
  root_directory := by
    obtain ⟨directory, hroot, _⟩ := ht.root_stands
    by_cases hself : root = place
    · obtain ⟨_, _, _, _, hnew⟩ := h.exists_directory
      rw [hself]
      exact ⟨_, hnew⟩
    · refine ⟨directory, ?_⟩
      rw [directory?_eq_bind, h.node?_of_not_mem root hself h.root_not_mem, ← directory?_eq_bind]
      exact hroot
  child_of := fun id name next hnext => (h.child?_cases hnext).1
  directory_of := fun id directory hdirectory => by
    obtain ⟨old, hold, hcases⟩ := h.directory?_cases hdirectory
    refine ⟨old, hold, ?_⟩
    rcases hcases with ⟨hself, rfl⟩ | ⟨_, rfl⟩ | ⟨_, _, rfl⟩
    · obtain ⟨found, hfound, _, hnames, _⟩ := h.exists_directory
      rw [hself, hfound] at hold
      obtain rfl : found = old := Option.some.inj hold
      exact ⟨rfl, hnames⟩
    · exact ⟨rfl, List.nil_sublist _⟩
    · exact ⟨rfl, List.Sublist.refl _⟩
  removed_of := fun id directory old hdirectory hold hplace => by
    obtain ⟨found, hfound, hcases⟩ := h.directory?_cases hdirectory
    obtain rfl : found = old := Option.some.inj (hfound.symm.trans hold)
    rcases hcases with ⟨_, rfl⟩ | ⟨hgone, rfl⟩ | ⟨_, _, rfl⟩
    · rfl
    · -- Nothing leads to a node that has been detached.
      rcases hplace with rfl | ⟨holder, name, hnext⟩
      · exact absurd hgone h.root_not_mem
      · obtain ⟨hbefore, hkeeps, hkept⟩ := h.child?_cases hnext
        have hold : (t.directory? id).isSome := by rw [hfound]; rfl
        rcases h.lost id hgone hold holder name hbefore with hholder | ⟨hself, hnone⟩
        · exact absurd hholder hkeeps
        · rw [hkept hself] at hnone
          cases hnone
    · rfl
  target_of := fun id target htarget => by
    have hlink : ∀ {tree : Tree}, tree.target? id = some target →
        tree.node? id = some (.link target) := by
      intro tree hfound
      unfold target? at hfound
      split at hfound
      · rename_i hnode
        rw [hnode, Option.some.inj hfound]
      · cases hfound
    have hnode := hlink htarget
    by_cases hself : id = place
    · obtain ⟨_, _, _, _, hnew⟩ := h.exists_directory
      rw [hself, node?_of_directory? hnew] at hnode
      cases hnode
    · by_cases hgone : id ∈ gone
      · rw [h.node?_of_mem id hgone] at hnode
        obtain ⟨before, hbefore, hdetached⟩ := Option.map_eq_some_iff.mp hnode
        cases before with
        | directory directory => cases hdetached
        | file content => cases hdetached
        | link other =>
          cases hdetached
          rw [target?, hbefore]
      · rw [h.node?_of_not_mem id hself hgone] at hnode
        rw [target?, hnode]

end Pruned

/-- An entry that is dropped takes its name and detaches its node. -/
theorem WellFormed.pruned_dropEntry (h : t.WellFormed) {place id : NodeId} {name : String}
    (hchild : t.child? place name = some id) :
    ∃ kept, t.Pruned (t.dropEntry place name id) place kept [id] := by
  obtain ⟨holder, hholder, hfind⟩ := directory?_of_child? hchild
  have hsize : id < t.size := h.lt_size place name id hchild
  have hholderSome : (t.directory? place).isSome := by rw [hholder]; rfl
  have hne : place ≠ id := by
    rintro rfl
    exact Nat.lt_irrefl _ (h.child_lt _ name _ hholderSome hchild)
  obtain ⟨node, hnode⟩ : ∃ node, t.node? id = some node :=
    ⟨_, List.getElem?_eq_getElem hsize⟩
  have hstays : (t.set id (detached node)).directory? place = some holder := by
    rw [directory?_eq_bind, node?_set_of_ne t hne, ← directory?_eq_bind, hholder]
  have hplace : place < (t.set id (detached node)).size := by
    rw [size_set]
    exact lt_size_of_node? (node?_of_directory? hholder)
  have hdrop : t.dropEntry place name id = (t.set id (detached node)).set place
      (.directory { holder with entries := holder.entries.erase name }) := by
    simp only [dropEntry, hnode, hstays]
  rw [hdrop]
  refine ⟨holder.entries.erase name, ?_, ⟨holder, hholder, ?_, ?_, ?_⟩, ?_, ?_, ?_, ?_, ?_⟩
  · rw [size_set, size_set]
  · intro other next hother
    by_cases hname : other = name
    · rw [hname, Registry.find?_erase_self] at hother
      cases hother
    · rwa [Registry.find?_erase_of_ne _ hname] at hother
  · exact List.filter_sublist.map Prod.fst
  · rw [directory?, node?_set_self _ hplace]
  · simpa using hne
  · intro hroot
    rw [← List.mem_singleton.mp hroot] at hchild
    exact h.child_ne_root hchild
  · intro gone hgone hdirectory other last hother
    rw [List.mem_singleton.mp hgone] at hdirectory hother
    obtain ⟨rfl, rfl⟩ := h.child_inj _ _ _ _ _ hdirectory hother hchild
    exact Or.inr ⟨rfl, Registry.find?_erase_self _ _⟩
  · intro gone hgone
    rw [List.mem_singleton.mp hgone, node?_set_of_ne _ (Ne.symm hne), node?_set_self t hsize, hnode]
    rfl
  · intro other hother hgone
    rw [node?_set_of_ne _ hother, node?_set_of_ne _ (by simpa using hgone)]

/-- Only directories have something below them. -/
theorem directory?_of_mem_below {depth : Nat} {id next : NodeId} (hnext : next ∈ t.below depth id) :
    (t.directory? id).isSome := by
  cases depth with
  | zero => cases hnext
  | succ depth =>
    unfold below at hnext
    split at hnext
    · rename_i hdirectory
      rw [hdirectory]
      rfl
    · cases hnext

/-- What is below a directory is in it or in what is below it, and if it is a directory itself it
comes after it. -/
theorem WellFormed.holder_of_mem_below (h : t.WellFormed) {depth : Nat} {id next : NodeId}
    (hnext : next ∈ t.below depth id) :
    ((t.directory? next).isSome → id < next) ∧
      ∃ holder name, (holder = id ∨ holder ∈ t.below depth id) ∧
        t.child? holder name = some next := by
  induction depth generalizing id with
  | zero => cases hnext
  | succ depth ih =>
    unfold below at hnext ⊢
    split at hnext
    · rename_i directory hdirectory
      obtain ⟨⟨name, entry⟩, hentry, hmem⟩ := List.mem_flatMap.mp hnext
      have hnodup := h.names_nodup id directory hdirectory
      have hchild : t.child? id name = some entry := by
        rw [child?, hdirectory, Option.bind_some]
        exact (Registry.mem_entries_iff hnodup).mp hentry
      rcases List.mem_cons.mp hmem with rfl | hbelow
      · exact ⟨fun hsome => h.child_lt id name next hsome hchild, id, name, Or.inl rfl, hchild⟩
      · have hlt : id < entry := h.child_lt id name entry (directory?_of_mem_below hbelow) hchild
        obtain ⟨habove, holder, last, hholder, hlast⟩ := ih hbelow
        refine ⟨fun hsome => Nat.lt_trans hlt (habove hsome), holder, last, Or.inr ?_, hlast⟩
        refine List.mem_flatMap.mpr ⟨(name, entry), hentry, ?_⟩
        rcases hholder with rfl | hholder
        · exact List.mem_cons_self
        · exact List.mem_cons_of_mem _ hholder
    · cases hnext

/-- Clearing a directory takes all its names and detaches all that is below it. -/
theorem WellFormed.pruned_clear (h : t.WellFormed) {id : NodeId} {directory : Directory}
    (hdirectory : t.directory? id = some directory) :
    t.Pruned (t.clear id) id {} (t.below t.size id) := by
  have hsize : id < t.size := lt_size_of_node? (node?_of_directory? hdirectory)
  have hself : id ∉ t.below t.size id := fun hmem =>
    Nat.lt_irrefl id ((h.holder_of_mem_below hmem).1 (by rw [hdirectory]; rfl))
  let doomed : Tree := ⟨t.nodes.mapIdx fun i node =>
    if (t.below t.size id).contains i then detached node else node⟩
  have hnode : ∀ other, doomed.node? other =
      if other ∈ t.below t.size id then (t.node? other).map detached else t.node? other := by
    intro other
    simp only [doomed, node?, List.getElem?_mapIdx]
    cases t.nodes[other]? <;> by_cases hmem : other ∈ t.below t.size id <;> simp [hmem]
  have hlength : doomed.size = t.size := by simp [doomed, size]
  have hstays : doomed.directory? id = some directory := by
    rw [directory?_eq_bind, hnode, if_neg hself, ← directory?_eq_bind, hdirectory]
  have hclear : t.clear id = doomed.set id (.directory { directory with entries := {} }) := by
    unfold clear
    simp only [doomed] at hstays
    simp only [hstays, doomed]
  rw [hclear]
  refine ⟨?_, ⟨directory, hdirectory, ?_, ?_, ?_⟩, hself, ?_, ?_, ?_, ?_⟩
  · rw [size_set, hlength]
  · rintro name next hnext
    cases hnext
  · exact List.nil_sublist _
  · rw [directory?, node?_set_self doomed (by rwa [hlength])]
  · intro hroot
    obtain ⟨holder, name, _, hchild⟩ := (h.holder_of_mem_below hroot).2
    exact h.child_ne_root hchild
  · intro gone hgone hsome holder name hchild
    obtain ⟨_, holder', name', hholder, hchild'⟩ := h.holder_of_mem_below hgone
    obtain ⟨rfl, rfl⟩ := h.child_inj _ _ _ _ _ hsome hchild hchild'
    rcases hholder with rfl | hholder
    · exact Or.inr ⟨rfl, rfl⟩
    · exact Or.inl hholder
  · intro gone hgone
    have hne : gone ≠ id := fun heq => hself (heq ▸ hgone)
    rw [node?_set_of_ne doomed hne, hnode, if_pos hgone]
  · intro other hother hgone
    rw [node?_set_of_ne doomed hother, hnode, if_neg hgone]

namespace WellFormed

/-- Dropping an entry keeps a tree well-formed. -/
theorem dropEntry (h : t.WellFormed) {place id : NodeId} {name : String}
    (hchild : t.child? place name = some id) : (t.dropEntry place name id).WellFormed := by
  obtain ⟨kept, hpruned⟩ := h.pruned_dropEntry hchild
  exact h.of_shrunk (hpruned.shrunk h)

/-- Clearing a directory keeps a tree well-formed. -/
theorem clear (h : t.WellFormed) {id : NodeId} {directory : Directory}
    (hdirectory : t.directory? id = some directory) : (t.clear id).WellFormed :=
  h.of_shrunk ((h.pruned_clear hdirectory).shrunk h)

end WellFormed

/-- A step that finds a node under a name finds the entry of that name. -/
theorem child?_of_enter {above id : NodeId} {directory : Directory} {name : String}
    (hdirectory : t.directory? above = some directory)
    (henter : enter directory above (.name name) = .ok (.node id)) :
    t.child? above name = some id := by
  simp only [enter] at henter
  split at henter
  · cases henter
  · split at henter
    · cases henter
    · split at henter
      · rename_i hfind
        cases henter
        rw [child?, hdirectory, Option.bind_some, hfind]
      · cases henter

namespace WellFormed

/-- Taking a name out keeps a tree well-formed. -/
theorem unlink (h : t.WellFormed) {here : NodeId} {text : String} (hnul : '\x00' ∉ text.toList)
    (hdone : t.unlink here text = .ok t') : t'.WellFormed := by
  unfold Tree.unlink at hdone
  obtain ⟨last, hlast, hdone⟩ := exists_ok_of_bind hdone
  split at hdone
  · rename_i above directory name
    obtain ⟨hdirectory, _⟩ := directory?_of_lastStep? hnul hlast
    obtain ⟨arrival, henter, hdone⟩ := exists_ok_of_bind hdone
    split at hdone
    · split at hdone
      · cases hdone
      · split at hdone
        · cases hdone
        · cases hdone
          exact h.dropEntry (child?_of_enter hdirectory henter)
    · cases hdone
  · cases hdone

/-- Taking an empty directory out keeps a tree well-formed. -/
theorem removeDirectory (h : t.WellFormed) {here : NodeId} {text : String}
    (hnul : '\x00' ∉ text.toList) (hdone : t.removeDirectory here text = .ok t') :
    t'.WellFormed := by
  unfold Tree.removeDirectory at hdone
  obtain ⟨last, hlast, hdone⟩ := exists_ok_of_bind hdone
  split at hdone
  · rename_i above directory name
    obtain ⟨hdirectory, _⟩ := directory?_of_lastStep? hnul hlast
    obtain ⟨arrival, henter, hdone⟩ := exists_ok_of_bind hdone
    split at hdone
    · split at hdone
      · split at hdone
        · cases hdone
          exact h.dropEntry (child?_of_enter hdirectory henter)
        · cases hdone
      · cases hdone
    · cases hdone
  · cases hdone
  · cases hdone
  · cases hdone

end WellFormed

/-- What is at a path is taken out or left, or it is a directory, which is emptied and then taken
out or left. -/
theorem remove_tree_cases (t : Tree) (here : NodeId) (text : String) :
    ((t.remove here text).1 = t ∨ t.unlink here text = .ok (t.remove here text).1) ∨
    ∃ id directory, t.directory? id = some directory ∧
      ((t.remove here text).1 = t.clear id ∨
        (t.clear id).removeDirectory here text = .ok (t.remove here text).1) := by
  by_cases hempties : ∃ id, t.lookUp here text = .ok id ∧
      ((t.directory? id).isSome && !t.isLink here text) = true
  · obtain ⟨id, hfound, hboth⟩ := hempties
    obtain ⟨directory, hdirectory⟩ :=
      Option.isSome_iff_exists.mp (Bool.and_eq_true_iff.mp hboth).1
    refine Or.inr ⟨id, directory, hdirectory, ?_⟩
    unfold Tree.remove
    simp only [hfound, hboth, if_true]
    cases (t.clear id).removeDirectory here text with
    | ok t' => exact Or.inr rfl
    | error fault => exact Or.inl rfl
  · have hkeeps : (t.remove here text).1 = (t.unlink here text).toOption.getD t := by
      unfold Tree.remove
      cases hfound : t.lookUp here text with
      | error fault => cases t.unlink here text <;> rfl
      | ok id =>
        have hnot : ¬ ((t.directory? id).isSome && !t.isLink here text) = true := fun hboth =>
          hempties ⟨id, hfound, hboth⟩
        simp only [if_neg hnot]
        cases t.unlink here text <;> rfl
    rw [hkeeps]
    cases t.unlink here text with
    | ok t' => exact Or.inl (Or.inr rfl)
    | error fault => exact Or.inl (Or.inl rfl)

/-- Taking away what is at a path keeps a tree well-formed. -/
theorem WellFormed.remove (h : t.WellFormed) (here : NodeId) {text : String}
    (hnul : '\x00' ∉ text.toList) : (t.remove here text).1.WellFormed := by
  rcases t.remove_tree_cases here text with
    (hsame | hdone) | ⟨id, directory, hdirectory, hcleared | hdone⟩
  · rwa [hsame]
  · exact h.unlink hnul hdone
  · rw [hcleared]
    exact h.clear hdirectory
  · exact (h.clear hdirectory).removeDirectory hnul hdone

end Fixtures.Tree
