import Fixtures.Proofs.Tree.Provision

/-!
# Directories made one in the other

In a directory that does not have a name, directories can be made one in the other from that name
on. They get the next numbers, and each has only the next one in it. All other nodes stay as they
are, but for the one new name in the directory that they are made in.
-/

namespace Fixtures.Tree

variable {t : Tree} {id : NodeId} {names place missing : List String} {name : String}

/-- Makes directories one in the other, the first of them in a directory. The tree with them comes
with the number of the deepest. -/
def dig (t : Tree) (id : NodeId) (missing : List String) : Tree × NodeId :=
  missing.foldl (fun dug name =>
    (dug.1.addNode dug.2 name (.directory { parent := dug.2 }), dug.1.size)) (t, id)

/-- Without a name nothing is made. -/
@[simp] theorem dig_nil (t : Tree) (id : NodeId) : t.dig id [] = (t, id) := rfl

/-- One more directory is made in the deepest. -/
theorem dig_concat (t : Tree) (id : NodeId) (missing : List String) (name : String) :
    t.dig id (missing ++ [name]) =
      ((t.dig id missing).1.addNode (t.dig id missing).2 name
        (.directory { parent := (t.dig id missing).2 }), (t.dig id missing).1.size) := by
  rw [dig, List.foldl_append]
  rfl

/-- What is there when directories have been made one in the other. The names before them lead to
the directory that they are made in, which has a place. -/
structure Dug (t : Tree) (names place : List String) (id : NodeId) (missing : List String) :
    Prop where
  /-- The tree is sound. -/
  sound : (t.dig id missing).1.Sound
  /-- There are as many nodes more as there are names. -/
  size_eq : (t.dig id missing).1.size = t.size + missing.length
  /-- A directory that has been made has one of the new numbers. -/
  size_le : missing ≠ [] → t.size ≤ (t.dig id missing).2
  /-- There is nothing in the deepest directory that has been made. -/
  vacant : missing ≠ [] → ∀ name, IsName name →
    (t.dig id missing).1.Vacant (t.dig id missing).2 name
  /-- Walks arrive at the nodes that they arrived at. -/
  course_of : ∀ links here steps node, t.Course links here steps (.node node) →
    (t.dig id missing).1.Course links here steps (.node node)
  /-- All along the names there are directories, links followed, each at its place. -/
  along : ∀ front, front <+: missing →
    (t.dig id missing).1.Course linkLimit root ((names ++ front).map Step.name)
      (.node (t.dig id front).2) ∧
    (t.dig id missing).1.descend (place ++ front) = some (t.dig id front).2 ∧
    ((t.dig id missing).1.directory? (t.dig id front).2).isSome
  /-- Nothing else is shown than before. -/
  at?_eq : (t.dig id missing).1.at? = withPlaces (levels place missing) t.at?
  /-- All other nodes are as they were. -/
  node?_eq : ∀ node, node < t.size → (node = id → missing = []) →
    (t.dig id missing).1.node? node = t.node? node
  /-- The directory has the names that it had, but for the first new one. -/
  child?_eq : ∀ name, missing.head? ≠ some name →
    (t.dig id missing).1.child? id name = t.child? id name

/-- Before anything has been made there is the directory. -/
theorem Sound.dug_nil (h : t.Sound)
    (hcourse : t.Course linkLimit root (names.map Step.name) (.node id))
    (hplace : t.descend place = some id) (hdirectory : (t.directory? id).isSome) :
    t.Dug names place id [] where
  sound := h
  size_eq := rfl
  size_le := fun hne => absurd rfl hne
  vacant := fun hne => absurd rfl hne
  course_of := fun _ _ _ _ hcourse => hcourse
  along := fun front hfront => by
    obtain rfl : front = [] := List.prefix_nil.mp hfront
    rw [List.append_nil, List.append_nil]
    exact ⟨hcourse, hplace, hdirectory⟩
  at?_eq := (withPlaces_self (by simp [levels])).symm
  node?_eq := fun _ _ _ => rfl
  child?_eq := fun _ _ => rfl

/-- One more directory in the deepest. -/
theorem Dug.concat (h : t.Dug names place id missing) (hid : id < t.size)
    (hvacant : (t.dig id missing).1.Vacant (t.dig id missing).2 name) :
    t.Dug names place id (missing ++ [name]) := by
  obtain ⟨directory, hdirectory⟩ := hvacant.exists_directory
  obtain ⟨hcourse, hplace, _⟩ := h.along missing List.prefix_rfl
  have hlast := dig_concat t id missing name
  exact {
    sound := by
      rw [hlast]
      exact h.sound.addNode hdirectory hvacant.isName .directory
    size_eq := by
      rw [hlast, size_addNode hdirectory, h.size_eq, List.length_append, List.length_singleton,
        Nat.add_assoc]
    size_le := fun _ => by
      rw [hlast, h.size_eq]
      exact Nat.le_add_right _ _
    vacant := fun _ other hother => by
      rw [hlast]
      exact hvacant.vacant_new hother
    course_of := fun links here steps node hbefore => by
      rw [hlast]
      exact (h.course_of links here steps node hbefore).addNode _ hdirectory hvacant.child?_eq rfl
    along := fun front hfront => by
      rcases List.prefix_concat_iff.mp hfront with rfl | hshort
      · rw [hlast, ← List.append_assoc, ← List.append_assoc]
        refine ⟨h.sound.course_addNode _ hcourse hvacant rfl, ?_, ?_⟩
        · rw [h.sound.descend_addNode hdirectory hplace hvacant.child?_eq .directory, if_pos rfl]
        · obtain ⟨_, hnew⟩ := (hvacant.vacant_new hvacant.isName).exists_directory
          rw [hnew]
          rfl
      · -- What was made before is where it was.
        obtain ⟨hcourse', hplace', hdirectory'⟩ := h.along front hshort
        rw [hlast]
        refine ⟨hcourse'.addNode _ hdirectory hvacant.child?_eq rfl,
          (extends_addNode hdirectory hvacant.child?_eq .directory).descend_of hplace',
          ?_⟩
        rw [directory?_addNode hdirectory]
        split
        · rfl
        · split
          · rfl
          · exact hdirectory'
    at?_eq := by
      rw [hlast, h.sound.at?_addNode hdirectory hplace hvacant.child?_eq .directory, h.at?_eq,
        levels_concat, withPlaces_concat]
      rfl
    node?_eq := fun node hnode hother => by
      have hnew : node ≠ (t.dig id missing).1.size := by
        rw [h.size_eq]
        omega
      have hdeepest : node ≠ (t.dig id missing).2 := by
        rintro rfl
        by_cases hnil : missing = []
        · subst hnil
          exact absurd (hother rfl) (by simp)
        · exact absurd (h.size_le hnil) (Nat.not_le_of_lt hnode)
      rw [hlast, node?_addNode hdirectory, if_neg hdeepest, if_neg hnew]
      exact h.node?_eq node hnode fun hself => absurd (hother hself) (by simp)
    child?_eq := fun other hother => by
      rw [hlast, child?_addNode hdirectory .directory]
      split
      · -- The deepest directory is the one that the first is made in, so this is the first name.
        rename_i hsame
        have hnil : missing = [] := Classical.byContradiction fun hne =>
          absurd (hsame.1 ▸ h.size_le hne) (Nat.not_le_of_lt hid)
        rw [hnil, hsame.2] at hother
        exact absurd rfl hother
      · refine h.child?_eq other fun hhead => hother ?_
        rw [List.head?_append, hhead]
        rfl }

/-- The next directory can be made in the deepest: it is the first, or there is nothing in the
deepest yet. -/
theorem Dug.vacant_last (h : t.Dug names place id missing)
    (hfirst : ∀ first ∈ (missing ++ [name]).head?, t.Vacant id first) (hname : IsName name) :
    (t.dig id missing).1.Vacant (t.dig id missing).2 name := by
  cases missing with
  | nil => exact hfirst name rfl
  | cons first rest => exact h.vacant (by simp) name hname

/-- **Directories made one in the other.** They are made from a name on that a directory does not
have, whatever links lead to it. -/
theorem Sound.dug (h : t.Sound)
    (hcourse : t.Course linkLimit root (names.map Step.name) (.node id))
    (hplace : t.descend place = some id) (hdirectory : (t.directory? id).isSome)
    (hnames : ∀ name ∈ missing, IsName name)
    (hfirst : ∀ first ∈ missing.head?, t.Vacant id first) : t.Dug names place id missing := by
  induction missing using List.reverseRecOn with
  | nil => exact h.dug_nil hcourse hplace hdirectory
  | append_singleton missing name ih =>
    have hdug := ih (fun other hother => hnames other (List.mem_append_left _ hother))
      fun first hhead => hfirst first (List.mem_head?_append_of_mem_head? hhead)
    have hlast := hdug.vacant_last hfirst (hnames name (by simp))
    exact hdug.concat (h.lt_size_of_descend hplace) hlast

end Fixtures.Tree
