import Fixtures.Proofs.Tree.View

/-!
# New contents, names and nodes

A file that is written to shows its new content under all its names. A node that is put into a
directory is first put behind the other nodes, where nothing leads to it, and then gets a name: each
of both keeps a tree well-formed. What a tree has had it keeps when it grows in this way, and every
entry that is new leads to a new node.
-/

namespace Fixtures.Tree

variable {t : Tree} {names : List String} {name : String} {id place : NodeId}

/-! ## Writing to a file -/

section WriteFile

variable {content old : Sparse}

/-- A file with another content in the place of a file. -/
theorem node?_setFile (hfile : t.content? id = some old) (other : NodeId) :
    (t.set id (.file content)).node? other =
      if other = id then some (.file content) else t.node? other := by
  split
  · rename_i heq
    rw [heq]
    exact node?_set_self t (lt_size_of_node? (node?_of_content? hfile)) _
  · exact node?_set_of_ne t ‹_› _

/-- Writing to a file changes no directory. -/
theorem directory?_setFile (hfile : t.content? id = some old) (other : NodeId) :
    (t.set id (.file content)).directory? other = t.directory? other := by
  by_cases heq : other = id
  · rw [heq, directory?, directory?, node?_setFile hfile, if_pos rfl, node?_of_content? hfile]
  · rw [directory?, directory?, node?_setFile hfile, if_neg heq]

/-- Writing to a file changes no entry. -/
theorem child?_setFile (hfile : t.content? id = some old) (other : NodeId) (name : String) :
    (t.set id (.file content)).child? other name = t.child? other name := by
  unfold child?
  rw [directory?_setFile hfile]

/-- Writing to a file changes no link. -/
theorem target?_setFile (hfile : t.content? id = some old) (other : NodeId) :
    (t.set id (.file content)).target? other = t.target? other := by
  by_cases heq : other = id
  · rw [heq, target?, target?, node?_setFile hfile, if_pos rfl, node?_of_content? hfile]
  · rw [target?, target?, node?_setFile hfile, if_neg heq]

/-- Writing to a file changes no way through the tree. -/
theorem descend_setFile (hfile : t.content? id = some old) (names : List String) :
    (t.set id (.file content)).descend names = t.descend names := by
  unfold descend
  have hchild : (t.set id (.file content)).child? = t.child? := by
    funext other name
    exact child?_setFile hfile other name
  rw [hchild]

/-- A tree stays well-formed when a file is written to. -/
theorem WellFormed.setFile (h : t.WellFormed) (hfile : t.content? id = some old) :
    (t.set id (.file content)).WellFormed where
  root_stands := by
    rw [directory?_setFile hfile]
    exact h.root_stands
  names_nodup := fun other directory => by
    rw [directory?_setFile hfile]
    exact h.names_nodup other directory
  isName := fun other name next => by
    rw [child?_setFile hfile]
    exact h.isName other name next
  child_inj := fun first name second name' next => by
    rw [directory?_setFile hfile, child?_setFile hfile, child?_setFile hfile]
    exact h.child_inj first name second name' next
  child_lt := fun other name next => by
    rw [directory?_setFile hfile, child?_setFile hfile]
    exact h.child_lt other name next
  lt_size := fun other name next => by
    rw [child?_setFile hfile, size_set]
    exact h.lt_size other name next
  stands := fun other name next directory => by
    rw [child?_setFile hfile, directory?_setFile hfile]
    exact h.stands other name next directory
  target_nul := fun other target => by
    rw [target?_setFile hfile]
    exact h.target_nul other target

/-- **A file that is written to** shows its new content under all its names, and nothing else
changes. -/
theorem at?_setFile (hfile : t.content? id = some old) (names : List String) :
    (t.set id (.file content)).at? names =
      if t.descend names = some id then some (.file content.toList) else t.at? names := by
  rw [at?, descend_setFile hfile]
  split
  · rename_i hid
    rw [hid, Option.bind_some, node?_setFile hfile, if_pos rfl]
    rfl
  · rename_i hother
    cases hnode : t.descend names with
    | none => rw [at?, hnode, Option.bind_none, Option.bind_none]
    | some node =>
      have hne : node ≠ id := fun heq => hother (heq ▸ hnode)
      rw [at?_of_descend hnode, Option.bind_some, node?_setFile hfile, if_neg hne]

end WriteFile

/-! ## One more node -/

section Push

variable {node : Node}

/-- The nodes after one has been put behind the others. -/
theorem node?_push (t : Tree) (node : Node) (other : NodeId) :
    (t.push node).node? other = if other = t.size then some node else t.node? other := by
  split
  · rename_i hnew
    rw [hnew, node?_push_size]
  · rename_i hne
    rcases Nat.lt_or_gt_of_ne hne with hbelow | habove
    · exact node?_push_of_lt t hbelow node
    · have hend : (t.push node).size ≤ other := by
        rw [size_push]
        exact habove
      rw [node?_of_size_le _ hend, node?_of_size_le t (Nat.le_of_lt habove)]

/-- The directories after a node has been put behind the others. -/
theorem directory?_push (t : Tree) (node : Node) (other : NodeId) :
    (t.push node).directory? other =
      if other = t.size then node.directory? else t.directory? other := by
  rw [directory?_eq_bind, node?_push]
  split
  · rfl
  · rw [directory?_eq_bind]

/-- The directories that were there are there still. -/
theorem directory?_push_of_some {directory : Directory}
    (hplace : t.directory? place = some directory) (node : Node) :
    (t.push node).directory? place = some directory := by
  have hlt : place < t.size := lt_size_of_node? (node?_of_directory? hplace)
  rw [directory?_push, if_neg (Nat.ne_of_lt hlt), hplace]

/-- The files after a node has been put behind the others. -/
theorem content?_push (t : Tree) (node : Node) (other : NodeId) :
    (t.push node).content? other = if other = t.size then node.content? else t.content? other := by
  rw [content?_eq_bind, node?_push]
  split
  · rfl
  · rw [content?_eq_bind]

/-- The links after a node has been put behind the others. -/
theorem target?_push (t : Tree) (node : Node) (other : NodeId) :
    (t.push node).target? other = if other = t.size then node.target? else t.target? other := by
  rw [target?_eq_bind, node?_push]
  split
  · rfl
  · rw [target?_eq_bind]

/-- A fresh node has no entries. -/
theorem child?_push (t : Tree) (hfresh : node.FreshIn place) (other : NodeId) (wanted : String) :
    (t.push node).child? other wanted = t.child? other wanted := by
  rw [child?, directory?_push]
  split
  · rename_i hnew
    rw [child?, hnew, directory?_eq_bind, node?_of_size_le t (Nat.le_refl _)]
    cases hfresh <;> rfl
  · rfl

/-- A tree stays well-formed when a fresh node is put behind the others. -/
theorem WellFormed.push (h : t.WellFormed) (hfresh : node.FreshIn place) :
    (t.push node).WellFormed := by
  have hchild := child?_push t hfresh
  -- What an entry leads to was there already.
  have hold {other next : NodeId} {wanted : String} (hnext : t.child? other wanted = some next) :
      (t.push node).directory? next = t.directory? next := by
    rw [directory?_push, if_neg (Nat.ne_of_lt (h.lt_size _ _ _ hnext))]
  exact {
    root_stands := by
      obtain ⟨found, hroot, hremoved⟩ := h.root_stands
      exact ⟨found, directory?_push_of_some hroot node, hremoved⟩
    names_nodup := fun other found hfound => by
      rw [directory?_push] at hfound
      split at hfound
      · rw [hfresh.directory?_eq hfound]
        exact List.nodup_nil
      · exact h.names_nodup other found hfound
    isName := fun other wanted next hnext => h.isName other wanted next (hchild _ _ ▸ hnext)
    child_inj := fun first wanted second wanted' next hsome hnext hnext' => by
      rw [hchild] at hnext hnext'
      exact h.child_inj first wanted second wanted' next (hold hnext ▸ hsome) hnext hnext'
    child_lt := fun other wanted next hsome hnext => by
      rw [hchild] at hnext
      exact h.child_lt other wanted next (hold hnext ▸ hsome) hnext
    lt_size := fun other wanted next hnext => by
      rw [hchild] at hnext
      rw [size_push]
      exact Nat.lt_succ_of_lt (h.lt_size other wanted next hnext)
    stands := fun other wanted next found hnext hfound => by
      rw [hchild] at hnext
      exact h.stands other wanted next found hnext (hold hnext ▸ hfound)
    target_nul := fun other target htarget => by
      rw [target?_push] at htarget
      split at htarget
      · cases hfresh with
        | directory => cases htarget
        | file content => cases htarget
        | link hnul => rwa [← Option.some.inj htarget]
      · exact h.target_nul other target htarget }

end Push

/-! ## One more name -/

section AddEntry

variable {directory : Directory} {next : NodeId}

/-- The nodes after a directory has got an entry. -/
theorem node?_addEntry (hplace : t.directory? place = some directory) (other : NodeId) :
    (t.addEntry place name next).node? other =
      if other = place then
        some (.directory { directory with entries := directory.entries.insert name next })
      else t.node? other := by
  simp only [addEntry, hplace]
  split
  · rename_i hself
    rw [hself]
    exact node?_set_self t (lt_size_of_node? (node?_of_directory? hplace)) _
  · exact node?_set_of_ne t ‹_› _

/-- There are as many nodes as before. -/
theorem size_addEntry (hplace : t.directory? place = some directory) :
    (t.addEntry place name next).size = t.size := by
  simp only [addEntry, hplace, size_set]

/-- The directories after one has got an entry. -/
theorem directory?_addEntry (hplace : t.directory? place = some directory) (name : String)
    (next other : NodeId) :
    (t.addEntry place name next).directory? other =
      if other = place then
        some { directory with entries := directory.entries.insert name next }
      else t.directory? other := by
  rw [directory?_eq_bind, node?_addEntry hplace]
  split
  · rfl
  · rw [directory?_eq_bind]

/-- The entries after a directory has got one. -/
theorem child?_addEntry (hplace : t.directory? place = some directory) (name : String)
    (next other : NodeId) (wanted : String) :
    (t.addEntry place name next).child? other wanted =
      if other = place ∧ wanted = name then some next else t.child? other wanted := by
  rw [child?, directory?_addEntry hplace]
  by_cases hself : other = place
  · rw [if_pos hself, Option.bind_some, hself]
    by_cases hname : wanted = name
    · rw [hname, if_pos ⟨rfl, rfl⟩]
      exact Registry.find?_insert_self _ _ _
    · rw [if_neg fun heq => hname heq.2, child?, hplace, Option.bind_some]
      exact Registry.find?_insert_of_ne _ hname _
  · rw [if_neg hself, if_neg fun both => hself both.1]
    rfl

/-- No file has changed. -/
theorem content?_addEntry (hplace : t.directory? place = some directory) (other : NodeId) :
    (t.addEntry place name next).content? other = t.content? other := by
  rw [content?_eq_bind, node?_addEntry hplace, content?_eq_bind]
  split
  · rename_i hself
    rw [hself, node?_of_directory? hplace]
    rfl
  · rfl

/-- No link has changed. -/
theorem target?_addEntry (hplace : t.directory? place = some directory) (other : NodeId) :
    (t.addEntry place name next).target? other = t.target? other := by
  rw [target?_eq_bind, node?_addEntry hplace, target?_eq_bind]
  split
  · rename_i hself
    rw [hself, node?_of_directory? hplace]
    rfl
  · rfl

/-- **A tree stays well-formed when a node gets one more name.** A directory gets its only one, in
the directory above it. -/
theorem WellFormed.addEntry (h : t.WellFormed) (hplace : t.directory? place = some directory)
    (hname : IsName name) (hlt : next < t.size)
    (hnode : ∀ found, t.directory? next = some found → place < next ∧ found.parent = place ∧
      found.removed = false ∧ ∀ other wanted, t.child? other wanted ≠ some next) :
    (t.addEntry place name next).WellFormed := by
  have hchild := child?_addEntry hplace name next
  -- Directories are the ones that were there, in their places.
  have hdirectory {other : NodeId} {found : Directory}
      (hfound : (t.addEntry place name next).directory? other = some found) :
      ∃ old, t.directory? other = some old ∧ found.parent = old.parent ∧
        found.removed = old.removed := by
    rw [directory?_addEntry hplace] at hfound
    split at hfound
    · rename_i hself
      rw [hself, ← Option.some.inj hfound]
      exact ⟨directory, hplace, rfl, rfl⟩
    · exact ⟨found, hfound, rfl, rfl⟩
  have hsome {other : NodeId} (h : ((t.addEntry place name next).directory? other).isSome) :
      ∃ old, t.directory? other = some old := by
    obtain ⟨found, hfound⟩ := Option.isSome_iff_exists.mp h
    obtain ⟨old, hold, _⟩ := hdirectory hfound
    exact ⟨old, hold⟩
  exact {
    root_stands := by
      obtain ⟨found, hroot, hremoved⟩ := h.root_stands
      rw [directory?_addEntry hplace]
      split
      · rename_i hself
        rw [hself, hplace] at hroot
        exact ⟨_, rfl, (Option.some.inj hroot) ▸ hremoved⟩
      · exact ⟨found, hroot, hremoved⟩
    names_nodup := fun other found hfound => by
      rw [directory?_addEntry hplace] at hfound
      split at hfound
      · rw [← Option.some.inj hfound]
        exact Registry.nodup_names_insert (h.names_nodup place directory hplace) _ _
      · exact h.names_nodup other found hfound
    isName := fun other wanted last hlast => by
      rw [hchild] at hlast
      split at hlast
      · rename_i hnew
        rwa [hnew.2]
      · exact h.isName other wanted last hlast
    child_inj := fun first wanted second wanted' last hlastSome hlast hlast' => by
      obtain ⟨old, hold⟩ := hsome hlastSome
      rw [hchild] at hlast hlast'
      split at hlast
      · rename_i hnew
        split at hlast'
        · rename_i hnew'
          exact ⟨hnew.1.trans hnew'.1.symm, hnew.2.trans hnew'.2.symm⟩
        · -- A directory that gets a name has had none.
          rw [← Option.some.inj hlast] at hlast' hold
          exact absurd hlast' ((hnode old hold).2.2.2 second wanted')
      · split at hlast'
        · rw [← Option.some.inj hlast'] at hlast hold
          exact absurd hlast ((hnode old hold).2.2.2 first wanted)
        · exact h.child_inj first wanted second wanted' last (by rw [hold]; rfl) hlast hlast'
    child_lt := fun other wanted last hlastSome hlast => by
      obtain ⟨old, hold⟩ := hsome hlastSome
      rw [hchild] at hlast
      split at hlast
      · rename_i hnew
        rw [← Option.some.inj hlast] at hold ⊢
        rw [hnew.1]
        exact (hnode old hold).1
      · exact h.child_lt other wanted last (by rw [hold]; rfl) hlast
    lt_size := fun other wanted last hlast => by
      rw [size_addEntry hplace]
      rw [hchild] at hlast
      split at hlast
      · rwa [← Option.some.inj hlast]
      · exact h.lt_size other wanted last hlast
    stands := fun other wanted last found hlast hfound => by
      obtain ⟨old, hold, hparent, hremoved⟩ := hdirectory hfound
      rw [hparent, hremoved]
      rw [hchild] at hlast
      split at hlast
      · rename_i hnew
        rw [← Option.some.inj hlast] at hold
        obtain ⟨_, hparent, hremoved, _⟩ := hnode old hold
        exact ⟨hparent.trans hnew.1.symm, hremoved⟩
      · exact h.stands other wanted last old hlast hold
    target_nul := fun other target htarget => by
      rw [target?_addEntry hplace] at htarget
      exact h.target_nul other target htarget }

end AddEntry

/-! ## Putting in a node -/

section AddNode

variable {directory : Directory} {node : Node}

/-- The nodes after one has been put into a directory. -/
theorem node?_addNode (hplace : t.directory? place = some directory) (other : NodeId) :
    (t.addNode place name node).node? other =
      if other = place then
        some (.directory { directory with entries := directory.entries.insert name t.size })
      else if other = t.size then some node else t.node? other := by
  rw [addNode, node?_addEntry (directory?_push_of_some hplace node), node?_push]

/-- There is one node more. -/
theorem size_addNode (hplace : t.directory? place = some directory) :
    (t.addNode place name node).size = t.size + 1 := by
  rw [addNode, size_addEntry (directory?_push_of_some hplace node), size_push]

/-- The directories after a node has been put into one of them. -/
theorem directory?_addNode (hplace : t.directory? place = some directory) (name : String)
    (node : Node) (other : NodeId) :
    (t.addNode place name node).directory? other =
      if other = place then
        some { directory with entries := directory.entries.insert name t.size }
      else if other = t.size then node.directory? else t.directory? other := by
  rw [addNode, directory?_addEntry (directory?_push_of_some hplace node), directory?_push]

/-- The entries after a node has been put into a directory: there is one more. -/
theorem child?_addNode (hplace : t.directory? place = some directory)
    (hfresh : node.FreshIn place) (name : String) (other : NodeId) (wanted : String) :
    (t.addNode place name node).child? other wanted =
      if other = place ∧ wanted = name then some t.size else t.child? other wanted := by
  rw [addNode, child?_addEntry (directory?_push_of_some hplace node), child?_push t hfresh]

/-- The files after a node has been put into a directory. -/
theorem content?_addNode (hplace : t.directory? place = some directory) (name : String)
    (node : Node) (other : NodeId) :
    (t.addNode place name node).content? other =
      if other = t.size then node.content? else t.content? other := by
  rw [addNode, content?_addEntry (directory?_push_of_some hplace node), content?_push]

/-- The links after a node has been put into a directory. -/
theorem target?_addNode (hplace : t.directory? place = some directory) (name : String)
    (node : Node) (other : NodeId) :
    (t.addNode place name node).target? other =
      if other = t.size then node.target? else t.target? other := by
  rw [addNode, target?_addEntry (directory?_push_of_some hplace node), target?_push]

/-- A node that is no file changes no file when it is put into a directory. -/
theorem content?_addNode_of_not_file (hplace : t.directory? place = some directory)
    (hnode : node.content? = none) (name : String) (other : NodeId) :
    (t.addNode place name node).content? other = t.content? other := by
  rw [content?_addNode hplace]
  split
  · rename_i hnew
    rw [hnode, hnew, content?_eq_bind, node?_of_size_le t (Nat.le_refl _)]
    rfl
  · rfl

/-- A node that is no link changes no link when it is put into a directory. -/
theorem target?_addNode_of_not_link (hplace : t.directory? place = some directory)
    (hnode : node.target? = none) (name : String) (other : NodeId) :
    (t.addNode place name node).target? other = t.target? other := by
  rw [target?_addNode hplace]
  split
  · rename_i hnew
    rw [hnode, hnew, target?_eq_bind, node?_of_size_le t (Nat.le_refl _)]
    rfl
  · rfl

/-- A tree stays well-formed when a node is put at a vacant place of a directory. -/
theorem WellFormed.addNode (h : t.WellFormed) (hplace : t.directory? place = some directory)
    (hname : IsName name) (hfresh : node.FreshIn place) :
    (t.addNode place name node).WellFormed := by
  have hlt : place < t.size := lt_size_of_node? (node?_of_directory? hplace)
  refine (h.push hfresh).addEntry (directory?_push_of_some hplace node) hname ?_ ?_
  · rw [size_push]
    exact Nat.lt_succ_self _
  · intro found hfound
    rw [directory?_push, if_pos rfl] at hfound
    rw [hfresh.directory?_eq hfound]
    refine ⟨hlt, rfl, rfl, fun other wanted hnext => ?_⟩
    rw [child?_push t hfresh] at hnext
    exact absurd (h.lt_size other wanted _ hnext) (Nat.lt_irrefl _)

/-- Names lead where they led before, and to one node more. -/
theorem WellFormed.descend_addNode (h : t.WellFormed) (hplace : t.directory? place = some directory)
    (hnames : t.descend names = some place) (hvacant : t.child? place name = none)
    (hfresh : node.FreshIn place) (other : List String) :
    (t.addNode place name node).descend other =
      if other = names ++ [name] then some t.size else t.descend other := by
  have hchild := child?_addNode hplace hfresh name
  induction other using List.reverseRecOn with
  | nil => simp
  | append_singleton other last ih =>
    rw [descend_append_singleton, ih, descend_append_singleton]
    by_cases hnew : other = names ++ [name]
    · -- Nothing is below the new node, and nothing was below its place.
      have hlonger : other ++ [last] ≠ names ++ [name] := by
        rw [hnew]
        simp
      have hbelow : t.child? t.size last = none := by
        rw [child?, directory?_eq_bind, node?_of_size_le t (Nat.le_refl _)]
        rfl
      have hne : ¬ (t.size = place ∧ last = name) := fun both =>
        Nat.ne_of_gt (h.lt_size_of_descend hnames) both.1
      rw [if_pos hnew, if_neg hlonger, Option.bind_some, hchild, if_neg hne, hbelow, hnew,
        descend_append_singleton, hnames, Option.bind_some, hvacant, Option.bind_none]
    · rw [if_neg hnew]
      cases hother : t.descend other with
      | none =>
        have hne : other ++ [last] ≠ names ++ [name] := by
          intro heq
          rw [(List.append_inj' heq rfl).1, hnames] at hother
          cases hother
        rw [if_neg hne, Option.bind_none, Option.bind_none]
      | some id =>
        have hiff : id = place ∧ last = name ↔ other ++ [last] = names ++ [name] := by
          constructor
          · rintro ⟨rfl, rfl⟩
            rw [h.descend_inj (by rw [hplace]; rfl) hother hnames]
          · intro heq
            obtain ⟨rfl, hlast⟩ := List.append_inj' heq rfl
            rw [hnames] at hother
            exact ⟨(Option.some.inj hother).symm, List.singleton_inj.mp hlast⟩
        rw [Option.bind_some, Option.bind_some, hchild]
        exact if_congr hiff rfl rfl

/-- Only the names of its place lead to the new node. -/
theorem WellFormed.descend_addNode_eq_size_iff (h : t.WellFormed)
    (hplace : t.directory? place = some directory) (hnames : t.descend names = some place)
    (hvacant : t.child? place name = none) (hfresh : node.FreshIn place) (other : List String) :
    (t.addNode place name node).descend other = some t.size ↔ other = names ++ [name] := by
  rw [h.descend_addNode hplace hnames hvacant hfresh]
  constructor
  · intro hnew
    by_contra hne
    rw [if_neg hne] at hnew
    exact Nat.lt_irrefl _ (h.lt_size_of_descend hnew)
  · intro heq
    rw [if_pos heq]

/-- **A node that is put at a vacant place** is shown there, and nothing else changes. -/
theorem WellFormed.at?_addNode (h : t.WellFormed) (hplace : t.directory? place = some directory)
    (hnames : t.descend names = some place) (hvacant : t.child? place name = none)
    (hfresh : node.FreshIn place) :
    (t.addNode place name node).at? =
      Function.update t.at? (names ++ [name]) (some node.thing) := by
  have hlt : place < t.size := h.lt_size_of_descend hnames
  funext other
  rw [Function.update_apply, at?, h.descend_addNode hplace hnames hvacant hfresh]
  split
  · rw [Option.bind_some, node?_addNode hplace, if_neg (Nat.ne_of_gt hlt), if_pos rfl]
    rfl
  · cases hother : t.descend other with
    | none => rw [at?, hother, Option.bind_none, Option.bind_none]
    | some id =>
      rw [at?_of_descend hother, Option.bind_some, node?_addNode hplace]
      split
      · rename_i hself
        rw [hself, node?_of_directory? hplace]
        rfl
      · rw [if_neg (Nat.ne_of_lt (h.lt_size_of_descend hother))]

end AddNode

/-! ## What a growing tree keeps -/

/-- Nodes have been made, and nothing has been taken away: directories are where they were with the
entries that they had, and what they have beside these is new. Of files nothing is said. -/
structure Extends (before after : Tree) : Prop where
  /-- There are no less nodes. -/
  size_le : before.size ≤ after.size
  /-- Directories have the same one above them, and none has been removed. -/
  directory_of : ∀ id directory, before.directory? id = some directory →
    ∃ kept, after.directory? id = some kept ∧ kept.parent = directory.parent ∧
      kept.removed = directory.removed
  /-- Every entry is there still. -/
  child_of : ∀ id name next, before.child? id name = some next → after.child? id name = some next
  /-- An entry that was not there leads to a new node. -/
  child_cases : ∀ id name next, after.child? id name = some next →
    before.child? id name = some next ∨ before.size ≤ next

namespace Extends

variable {t' t'' : Tree}

/-- A tree keeps all that it has. -/
theorem refl (t : Tree) : t.Extends t where
  size_le := Nat.le_refl _
  directory_of := fun _ directory hdirectory => ⟨directory, hdirectory, rfl, rfl⟩
  child_of := fun _ _ _ hchild => hchild
  child_cases := fun _ _ _ hchild => Or.inl hchild

/-- What is kept twice is kept. -/
theorem trans (h : t.Extends t') (h' : t'.Extends t'') : t.Extends t'' where
  size_le := Nat.le_trans h.size_le h'.size_le
  directory_of := fun id directory hdirectory => by
    obtain ⟨kept, hkept, hparent, hremoved⟩ := h.directory_of id directory hdirectory
    obtain ⟨last, hlast, hparent', hremoved'⟩ := h'.directory_of id kept hkept
    exact ⟨last, hlast, hparent'.trans hparent, hremoved'.trans hremoved⟩
  child_of := fun id name next hchild => h'.child_of id name next (h.child_of id name next hchild)
  child_cases := fun id name next hchild => by
    rcases h'.child_cases id name next hchild with hmiddle | hnew
    · exact h.child_cases id name next hmiddle
    · exact Or.inr (Nat.le_trans h.size_le hnew)

/-- All nodes are where they were. -/
theorem descend_of (h : t.Extends t') (hid : t.descend names = some id) :
    t'.descend names = some id := by
  induction names using List.reverseRecOn generalizing id with
  | nil => exact hid
  | append_singleton names name ih =>
    obtain ⟨above, habove, hchild⟩ := exists_of_descend_append hid
    rw [descend_append_singleton, ih habove, Option.bind_some]
    exact h.child_of above name id hchild

/-- A node that was there has no other place than before. -/
theorem descend_of_lt (h : t.Extends t') (hid : t'.descend names = some id) (hlt : id < t.size) :
    t.descend names = some id := by
  induction names using List.reverseRecOn generalizing id with
  | nil => exact hid
  | append_singleton names name ih =>
    obtain ⟨above, habove, hchild⟩ := exists_of_descend_append hid
    have hold : t.child? above name = some id :=
      (h.child_cases above name id hchild).resolve_right (Nat.not_le_of_lt hlt)
    obtain ⟨directory, hdirectory, _⟩ := directory?_of_child? hold
    rw [descend_append_singleton, ih habove (lt_size_of_node? (node?_of_directory? hdirectory)),
      Option.bind_some, hold]

/-- Where a directory was shown it is shown still. -/
theorem at?_of_directory (h : t.Extends t') (hshown : t.at? names = some .directory) :
    t'.at? names = some .directory := by
  obtain ⟨id, hid, hsome⟩ := at?_eq_directory_iff.mp hshown
  obtain ⟨directory, hdirectory⟩ := Option.isSome_iff_exists.mp hsome
  obtain ⟨kept, hkept, _⟩ := h.directory_of id directory hdirectory
  exact at?_eq_directory_iff.mpr ⟨id, h.descend_of hid, by rw [hkept]; rfl⟩

end Extends

/-- Where the same is shown as before, it is the same node. -/
theorem WellFormed.descend_eq_of_at?_eq {t' : Tree} (h : t'.WellFormed) (hextends : t.Extends t')
    (hsame : t.at? names = t'.at? names) : t.descend names = t'.descend names := by
  cases hbefore : t.descend names with
  | none =>
    have hnone : t'.at? names = none := by rw [← hsame, at?, hbefore, Option.bind_none]
    rw [h.at?_eq_none_iff.mp hnone]
  | some id => rw [hextends.descend_of hbefore]

/-- Where nothing is new but directories, all other nodes have the places that they had. -/
theorem WellFormed.descend_eq_some_iff_of_extends {t' : Tree} (h : t'.WellFormed)
    (hextends : t.Extends t')
    (hsame : ∀ other, t'.at? other ≠ some .directory → t.at? other = t'.at? other)
    (hnode : t'.directory? id = none) : t'.descend names = some id ↔ t.descend names = some id := by
  refine ⟨fun hid => ?_, hextends.descend_of⟩
  have hshown : t'.at? names ≠ some .directory := by
    intro hdirectory
    obtain ⟨found, hfound, hsome⟩ := at?_eq_directory_iff.mp hdirectory
    obtain rfl : id = found := Option.some.inj (hid.symm.trans hfound)
    rw [hnode] at hsome
    cases hsome
  rw [h.descend_eq_of_at?_eq hextends (hsame names hshown), hid]

/-- When a file is written to all else is kept. -/
theorem extends_setFile {content old : Sparse} (hfile : t.content? id = some old) :
    t.Extends (t.set id (.file content)) where
  size_le := by rw [size_set]
  directory_of := fun other directory hdirectory =>
    ⟨directory, by rwa [directory?_setFile hfile], rfl, rfl⟩
  child_of := fun other name next hchild => by rwa [child?_setFile hfile]
  child_cases := fun other name next hchild => by
    rw [child?_setFile hfile] at hchild
    exact Or.inl hchild

/-- When a node is put at a vacant place all else is kept. -/
theorem extends_addNode {directory : Directory} {node : Node}
    (hplace : t.directory? place = some directory) (hvacant : t.child? place name = none)
    (hfresh : node.FreshIn place) : t.Extends (t.addNode place name node) where
  size_le := by
    rw [size_addNode hplace]
    exact Nat.le_succ _
  directory_of := fun other found hfound => by
    have hold : other ≠ t.size := Nat.ne_of_lt (lt_size_of_node? (node?_of_directory? hfound))
    rw [directory?_addNode hplace, if_neg hold]
    split
    · rename_i hself
      obtain rfl : found = directory := Option.some.inj (hfound.symm.trans (hself ▸ hplace))
      exact ⟨_, rfl, rfl, rfl⟩
    · exact ⟨found, hfound, rfl, rfl⟩
  child_of := fun other wanted next hchild => by
    rw [child?_addNode hplace hfresh, if_neg]
    · exact hchild
    · rintro ⟨rfl, rfl⟩
      rw [hvacant] at hchild
      cases hchild
  child_cases := fun other wanted next hchild => by
    rw [child?_addNode hplace hfresh] at hchild
    split at hchild
    · exact Or.inr (Nat.le_of_eq (Option.some.inj hchild))
    · exact Or.inl hchild

end Fixtures.Tree
