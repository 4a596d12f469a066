import Fixtures.Path
import Fixtures.Tree.Edit
import Mathlib

/-!
# What a tree shows

A tree shows something at each list of names that leads down from its root: a directory, a file with
its content, or a link with its target. In a well-formed tree every directory is in one place only.
A file may have several names, and then a change to it is a change of what is shown at all of them,
and nowhere else.
-/

namespace Fixtures

/-- What is shown of a node. -/
inductive Tree.Thing where
  /-- A directory. What is in it is shown at longer lists of names. -/
  | directory
  /-- A file with its content. -/
  | file (content : List UInt8)
  /-- A symbolic link with the path it stands for. -/
  | link (target : String)
  deriving DecidableEq

/-- What is shown of a node. -/
def Node.thing : Node → Tree.Thing
  | .directory _ => .directory
  | .file content => .file content.toList
  | .link target => .link target

/-- The directory that a node is. -/
def Node.directory? : Node → Option Directory
  | .directory found => some found
  | _ => none

/-- The content of the file that a node is. -/
def Node.content? : Node → Option Sparse
  | .file content => some content
  | _ => none

/-- What the link that a node is stands for. -/
def Node.target? : Node → Option String
  | .link target => some target
  | _ => none

/-- A node as it is put into a directory: a directory is empty and knows the one above it, and a
link stands for a path. -/
inductive Node.FreshIn (place : NodeId) : Node → Prop where
  /-- An empty directory. -/
  | directory : FreshIn place (.directory { parent := place })
  /-- A file. -/
  | file (content : Sparse) : FreshIn place (.file content)
  /-- A link. -/
  | link {target : String} (hnul : '\x00' ∉ target.toList) : FreshIn place (.link target)

/-- A fresh node that is a directory is empty, stands, and has the place it is put in above it. -/
theorem Node.FreshIn.directory?_eq {place : NodeId} {node : Node} (hfresh : node.FreshIn place)
    {found : Directory} (h : node.directory? = some found) : found = { parent := place } := by
  cases hfresh with
  | directory => exact (Option.some.inj h).symm
  | file content => cases h
  | link hnul => cases h

namespace Tree

/-- The directory of a number is the node of that number. -/
theorem directory?_eq_bind (t : Tree) (id : NodeId) :
    t.directory? id = (t.node? id).bind Node.directory? := by
  unfold directory?
  cases t.node? id with
  | none => rfl
  | some node => cases node <;> rfl

/-- The content of a number is that of the node of that number. -/
theorem content?_eq_bind (t : Tree) (id : NodeId) :
    t.content? id = (t.node? id).bind Node.content? := by
  unfold content?
  cases t.node? id with
  | none => rfl
  | some node => cases node <;> rfl

/-- The link of a number is the node of that number. -/
theorem target?_eq_bind (t : Tree) (id : NodeId) :
    t.target? id = (t.node? id).bind Node.target? := by
  unfold target?
  cases t.node? id with
  | none => rfl
  | some node => cases node <;> rfl

/-- What a directory can have under it: a part of a path that goes down, without a NUL, and no
longer than names may be. -/
structure IsName (name : String) : Prop where
  /-- It is a part of a path. -/
  isPart : Path.IsPart name
  /-- It does not go up. -/
  ne_up : name ≠ ".."
  /-- There is no NUL in it. -/
  nul_not_mem : '\x00' ∉ name.toList
  /-- It is short enough. -/
  short : name.utf8ByteSize ≤ nameLimit

instance (name : String) : Decidable (IsName name) :=
  decidable_of_iff (Path.IsPart name ∧ name ≠ ".." ∧ '\x00' ∉ name.toList ∧
      name.utf8ByteSize ≤ nameLimit)
    ⟨fun ⟨part, up, nul, short⟩ => ⟨part, up, nul, short⟩,
      fun h => ⟨h.isPart, h.ne_up, h.nul_not_mem, h.short⟩⟩

/-- The node that a directory has under a name. -/
def child? (t : Tree) (id : NodeId) (name : String) : Option NodeId :=
  (t.directory? id).bind fun directory => directory.entries.find? name

/-- The node that names lead to from the root, one entry after another. No link is followed. -/
def descend (t : Tree) (names : List String) : Option NodeId :=
  names.foldlM t.child? root

/-- What a tree shows at a list of names. -/
def at? (t : Tree) (names : List String) : Option Thing :=
  (t.descend names).bind fun id => (t.node? id).map Node.thing

/-- Directories lie in one another, and none of those below the root has been removed. A file may
have more than one name. -/
structure Nested (t : Tree) : Prop where
  /-- The root has not been removed. -/
  root_kept : ∀ directory, t.directory? root = some directory → directory.removed = false
  /-- Entries have names that can be looked up. -/
  isName : ∀ id name next, t.child? id name = some next → IsName name
  /-- A directory in another one has that one above it, and has not been removed. -/
  stands : ∀ id name next directory, t.child? id name = some next →
    t.directory? next = some directory → directory.parent = id ∧ directory.removed = false

/-- Every directory that has a place is in one place only, below the root and behind the directory
that it is in; that directory is the one above it. A file or a link may be under more than one
name. -/
structure WellFormed (t : Tree) : Prop where
  /-- The root is a directory that is not removed. -/
  root_stands : ∃ directory, t.directory? root = some directory ∧ directory.removed = false
  /-- No name comes twice in a directory. -/
  names_nodup : ∀ id directory, t.directory? id = some directory → directory.entries.names.Nodup
  /-- Entries have names that can be looked up. -/
  isName : ∀ id name next, t.child? id name = some next → IsName name
  /-- A directory is under one name of one directory. -/
  child_inj : ∀ id name id' name' next, (t.directory? next).isSome →
    t.child? id name = some next → t.child? id' name' = some next → id = id' ∧ name = name'
  /-- Directories are made after the directories that they are in. -/
  child_lt : ∀ id name next, (t.directory? next).isSome → t.child? id name = some next → id < next
  /-- Entries lead to nodes. -/
  lt_size : ∀ id name next, t.child? id name = some next → next < t.size
  /-- A directory in another one has that one above it, and has not been removed. -/
  stands : ∀ id name next directory, t.child? id name = some next →
    t.directory? next = some directory → directory.parent = id ∧ directory.removed = false
  /-- There is no NUL in what a link stands for. -/
  target_nul : ∀ id target, t.target? id = some target → '\x00' ∉ target.toList

variable {t : Tree} {names : List String} {name : String} {id place : NodeId}

@[simp] theorem descend_nil (t : Tree) : t.descend [] = some root := rfl

/-- The last name is looked for in the directory that the others lead to. -/
theorem descend_append_singleton (t : Tree) (names : List String) (name : String) :
    t.descend (names ++ [name]) = (t.descend names).bind fun id => t.child? id name := by
  simp only [descend, List.foldlM_append, List.foldlM_cons, List.foldlM_nil, bind_pure]
  rfl

/-- What is shown at names that lead to a node. -/
theorem at?_of_descend (h : t.descend names = some id) :
    t.at? names = (t.node? id).map Node.thing := by
  rw [at?, h, Option.bind_some]

/-- Only directories have entries. -/
theorem directory?_of_child? {next : NodeId} (h : t.child? id name = some next) :
    ∃ directory, t.directory? id = some directory ∧ directory.entries.find? name = some next :=
  Option.bind_eq_some_iff.mp h

/-- A node that is there has a number below the number of nodes. -/
theorem lt_size_of_node? {node : Node} (h : t.node? id = some node) : id < t.size :=
  (List.getElem?_eq_some_iff.mp h).1

/-- A directory is a node. -/
theorem node?_of_directory? {directory : Directory} (h : t.directory? id = some directory) :
    t.node? id = some (.directory directory) := by
  unfold directory? at h
  split at h
  · rename_i found hnode
    rw [hnode, Option.some.inj h]
  · cases h

/-- A file is a node. -/
theorem node?_of_content? {content : Sparse} (h : t.content? id = some content) :
    t.node? id = some (.file content) := by
  unfold content? at h
  split at h
  · rename_i found hnode
    rw [hnode, Option.some.inj h]
  · cases h

/-- A file stands for no other path. -/
theorem target?_of_content? {content : Sparse} (h : t.content? id = some content) :
    t.target? id = none := by
  rw [target?, node?_of_content? h]

/-- Directories, and only they, are shown as directories. -/
theorem at?_eq_directory_iff :
    t.at? names = some .directory ↔
      ∃ id, t.descend names = some id ∧ (t.directory? id).isSome := by
  constructor
  · intro h
    obtain ⟨id, hid, hthing⟩ := Option.bind_eq_some_iff.mp h
    obtain ⟨node, hnode, hdirectory⟩ := Option.map_eq_some_iff.mp hthing
    cases node with
    | directory directory => exact ⟨id, hid, by simp [directory?, hnode]⟩
    | file content => cases hdirectory
    | link target => cases hdirectory
  · rintro ⟨id, hid, hsome⟩
    obtain ⟨directory, hdirectory⟩ := Option.isSome_iff_exists.mp hsome
    rw [at?_of_descend hid, node?_of_directory? hdirectory]
    rfl

/-- Files, and only they, are shown as files. -/
theorem at?_eq_file_iff {bytes : List UInt8} :
    t.at? names = some (.file bytes) ↔
      ∃ id content, t.descend names = some id ∧ t.content? id = some content ∧
        content.toList = bytes := by
  constructor
  · intro h
    obtain ⟨id, hid, hthing⟩ := Option.bind_eq_some_iff.mp h
    obtain ⟨node, hnode, hfile⟩ := Option.map_eq_some_iff.mp hthing
    cases node with
    | directory directory => cases hfile
    | file content => exact ⟨id, content, hid, by simp [content?, hnode], Thing.file.inj hfile⟩
    | link target => cases hfile
  · rintro ⟨id, content, hid, hcontent, rfl⟩
    rw [at?_of_descend hid, node?_of_content? hcontent]
    rfl

/-- Names that lead on lead through a directory. -/
theorem exists_of_descend_append (h : t.descend (names ++ [name]) = some id) :
    ∃ above, t.descend names = some above ∧ t.child? above name = some id := by
  rw [descend_append_singleton] at h
  exact Option.bind_eq_some_iff.mp h

/-- Where something is shown behind other names, these show a directory. -/
theorem at?_eq_directory_of_append (h : (t.at? (names ++ [name])).isSome) :
    t.at? names = some .directory := by
  obtain ⟨thing, hthing⟩ := Option.isSome_iff_exists.mp h
  obtain ⟨id, hid, _⟩ := Option.bind_eq_some_iff.mp hthing
  obtain ⟨above, habove, hchild⟩ := exists_of_descend_append hid
  obtain ⟨directory, hdirectory, _⟩ := directory?_of_child? hchild
  exact at?_eq_directory_iff.mpr ⟨above, habove, by simp [hdirectory]⟩

/-- In the tree that has a root and nothing else no directory has an entry. -/
theorem child?_empty (id : NodeId) (name : String) : Tree.empty.child? id name = none := by
  cases id with
  | zero => rfl
  | succ id => rfl

/-- The tree that has a root and nothing else is well-formed. -/
theorem wellFormed_empty : Tree.empty.WellFormed where
  root_stands := ⟨_, rfl, rfl⟩
  names_nodup := fun id directory h => by
    cases id with
    | zero =>
      cases h
      exact List.nodup_nil
    | succ id => cases h
  isName := fun id name next h => by
    rw [child?_empty] at h
    cases h
  child_inj := fun id name id' name' next _ h => by
    rw [child?_empty] at h
    cases h
  child_lt := fun id name next _ h => by
    rw [child?_empty] at h
    cases h
  lt_size := fun id name next h => by
    rw [child?_empty] at h
    cases h
  stands := fun id name next directory h => by
    rw [child?_empty] at h
    cases h
  target_nul := fun id target h => by
    cases id with
    | zero => cases h
    | succ id => cases h

namespace Nested

/-- A directory that names lead to has not been removed. -/
theorem removed_eq_false (h : t.Nested) {directory : Directory}
    (hid : t.descend names = some id) (hdirectory : t.directory? id = some directory) :
    directory.removed = false := by
  cases names using List.reverseRecOn with
  | nil =>
    cases hid
    exact h.root_kept directory hdirectory
  | append_singleton names name =>
    obtain ⟨above, _, hchild⟩ := exists_of_descend_append hid
    exact (h.stands above name id directory hchild hdirectory).2

/-- Names that lead somewhere are names. -/
theorem isName_of_descend (h : t.Nested) (hid : t.descend names = some id) :
    ∀ name ∈ names, IsName name := by
  induction names using List.reverseRecOn generalizing id with
  | nil => simp
  | append_singleton names name ih =>
    obtain ⟨above, habove, hchild⟩ := exists_of_descend_append hid
    intro other hother
    rcases List.mem_append.mp hother with hother | hother
    · exact ih habove other hother
    · rw [List.mem_singleton.mp hother]
      exact h.isName above name id hchild

end Nested

namespace WellFormed

/-- Names lead to nodes only. -/
theorem lt_size_of_descend (h : t.WellFormed) (hid : t.descend names = some id) : id < t.size := by
  cases names using List.reverseRecOn with
  | nil =>
    obtain ⟨directory, hroot, _⟩ := h.root_stands
    cases hid
    exact lt_size_of_node? (node?_of_directory? hroot)
  | append_singleton names name =>
    obtain ⟨above, _, hchild⟩ := exists_of_descend_append hid
    exact h.lt_size above name id hchild

/-- Nothing is shown exactly where names lead nowhere. -/
theorem at?_eq_none_iff (h : t.WellFormed) : t.at? names = none ↔ t.descend names = none := by
  constructor
  · intro hnone
    cases hid : t.descend names with
    | none => rfl
    | some id =>
      have hlt : id < t.nodes.length := h.lt_size_of_descend hid
      rw [at?_of_descend hid, node?, List.getElem?_eq_getElem hlt] at hnone
      cases hnone
  · intro hnone
    rw [at?, hnone, Option.bind_none]

/-- Where nothing is shown behind a directory, it does not have the name. -/
theorem child?_eq_none (h : t.WellFormed) (hid : t.descend names = some id)
    (hnone : t.at? (names ++ [name]) = none) : t.child? id name = none := by
  have hnowhere := h.at?_eq_none_iff.mp hnone
  rwa [descend_append_singleton, hid, Option.bind_some] at hnowhere

/-- No directory has the root under it. -/
theorem child_ne_root (h : t.WellFormed) : t.child? id name ≠ some root := by
  obtain ⟨directory, hroot, _⟩ := h.root_stands
  intro hchild
  exact absurd (h.child_lt id name root (by rw [hroot]; rfl) hchild) (Nat.not_lt_zero id)

/-- **One place for every directory.** Only one list of names leads to a directory. -/
theorem descend_inj (h : t.WellFormed) {other : List String} (hdirectory : (t.directory? id).isSome)
    (hnames : t.descend names = some id) (hother : t.descend other = some id) : names = other := by
  induction names using List.reverseRecOn generalizing other id with
  | nil =>
    cases hnames
    cases other using List.reverseRecOn with
    | nil => rfl
    | append_singleton other last =>
      obtain ⟨above, _, hchild⟩ := exists_of_descend_append hother
      exact absurd hchild h.child_ne_root
  | append_singleton names name ih =>
    obtain ⟨above, habove, hchild⟩ := exists_of_descend_append hnames
    cases other using List.reverseRecOn with
    | nil =>
      cases hother
      exact absurd hchild h.child_ne_root
    | append_singleton other last =>
      obtain ⟨above', habove', hchild'⟩ := exists_of_descend_append hother
      obtain ⟨rfl, rfl⟩ := h.child_inj _ _ _ _ _ hdirectory hchild hchild'
      obtain ⟨holder, hholder, _⟩ := directory?_of_child? hchild
      rw [ih (by rw [hholder]; rfl) habove habove']

/-- In a well-formed tree directories lie in one another. -/
theorem nested (h : t.WellFormed) : t.Nested where
  root_kept := fun directory hdirectory => by
    obtain ⟨found, hroot, hremoved⟩ := h.root_stands
    rw [hdirectory] at hroot
    rwa [Option.some.inj hroot]
  isName := h.isName
  stands := h.stands

/-- Names that lead somewhere are names. -/
theorem isName_of_descend (h : t.WellFormed) (hid : t.descend names = some id) :
    ∀ name ∈ names, IsName name :=
  h.nested.isName_of_descend hid

end WellFormed

end Tree

end Fixtures
