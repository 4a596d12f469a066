import Fixtures.Proofs.Tree.Digging

/-!
# What is in the way of directories

Directories are made from the deepest up: it is tried first, and only where a name before it leads
nowhere is the directory above it asked for before a second try. What comes of that is told from
above. A name is in the way where the directory before it has the name, but the names do not lead to
a directory; it is a file's or a link's. With such a name on the way nothing is made. Without one
the names lead to directories up to a first one that is missing, and from there on all are made.
-/

namespace Fixtures.Tree

variable {t t' : Tree} {here above id node : NodeId}
  {base rest found missing names place : List String} {name : String}

/-- A path along the names can be looked up: they are names, and the path is not too long. -/
structure IsPath (names : List String) : Prop where
  /-- They are names. -/
  isName : ∀ name ∈ names, IsName name
  /-- The path is not too long. -/
  length_le : (Path.rooted names).utf8ByteSize ≤ pathLimit

/-- What begins a path is one. -/
theorem IsPath.of_prefix (h : IsPath names) {front : List String} (hfront : front <+: names) :
    IsPath front where
  isName := fun name hname => h.isName name (hfront.subset hname)
  length_le := Nat.le_trans (Path.utf8ByteSize_rooted_le hfront) h.length_le

/-- What comes before the end of a path is one. -/
theorem IsPath.of_append (h : IsPath (names ++ rest)) : IsPath names :=
  h.of_prefix (List.prefix_append _ _)

/-- A path along names is looked up where it has a course to. -/
theorem IsPath.lookUp_eq_ok_iff (h : IsPath names) :
    t.lookUp here (Path.rooted names) = .ok id ↔
      t.Course linkLimit root (names.map Step.name) (.node id) :=
  lookUp_rooted_eq_ok_iff h.isName h.length_le here

/-! ## Courses to directories -/

/-- Names lead to one node at most. -/
theorem Course.node_inj {links : Nat} {steps : List Step}
    (h : t.Course links here steps (.node id)) (h' : t.Course links here steps (.node node)) :
    id = node := by
  have hwalk := h.walk_eq
  rw [h'.walk_eq] at hwalk
  cases hwalk
  rfl

/-- A step is taken in a directory. -/
theorem Course.isSome_directory? {links : Nat} {step : Step} {steps : List Step} {arrival : Arrival}
    (h : t.Course links here (step :: steps) arrival) : (t.directory? here).isSome := by
  cases h with
  | vacant hhere _ => simp [hhere]
  | pass hhere _ _ _ => simp [hhere]
  | link hhere _ _ _ => simp [hhere]

/-- Before a directory that names lead to there are directories. -/
theorem Course.exists_directory_of_append {links : Nat}
    (h : t.Course links here ((names ++ rest).map Step.name) (.node id))
    (hdirectory : (t.directory? id).isSome) :
    ∃ above, t.Course links here (names.map Step.name) (.node above) ∧
      (t.directory? above).isSome := by
  cases rest with
  | nil => exact ⟨id, by rwa [List.append_nil] at h, hdirectory⟩
  | cons name rest =>
    rw [List.map_append] at h
    obtain ⟨above, hfront, hback⟩ := h.split (by simp)
    exact ⟨above, hfront, hback.isSome_directory?⟩

/-- The last name on the way to a node is in the directory before it. -/
theorem Course.exists_child {links : Nat}
    (h : t.Course links here ((names ++ [name]).map Step.name) (.node id)) :
    ∃ above, t.Course links here (names.map Step.name) (.node above) ∧
      (t.child? above name).isSome := by
  rw [List.map_append] at h
  obtain ⟨above, hfront, hback⟩ := h.split (by simp)
  refine ⟨above, hfront, ?_⟩
  rw [List.map_singleton] at hback
  cases hback with
  | pass hhere henter _ _ => rw [child?_of_enter hhere henter, Option.isSome_some]
  | link hhere henter _ _ => rw [child?_of_enter hhere henter, Option.isSome_some]

/-- Names lead to no link: links are followed to the end. -/
theorem Sound.target?_of_course (h : t.Sound) {links : Nat} {steps : List Step}
    (hcourse : t.Course links here steps (.node id)) (hhere : t.target? here = none) :
    t.target? id = none := by
  generalize hid : Arrival.node id = arrival at hcourse
  induction hcourse with
  | here =>
    cases hid
    exact hhere
  | vacant _ _ => cases hid
  | pass _ _ htarget _ ih => exact ih htarget hid
  | link hdirectory _ _ _ ih =>
    refine ih ?_ hid
    unfold origin
    split
    · obtain ⟨directory, hroot, _⟩ := h.root_stands
      exact target?_of_directory? hroot
    · exact target?_of_directory? hdirectory

/-- Names that lead to no directory lead to a file. -/
theorem Sound.isSome_content?_of_course (h : t.Sound) {links : Nat}
    (hcourse : t.Course links root (names.map Step.name) (.node id))
    (hnone : t.directory? id = none) : (t.content? id).isSome := by
  obtain ⟨directory, hroot, _⟩ := h.root_stands
  have htarget := h.target?_of_course hcourse (target?_of_directory? hroot)
  obtain ⟨place, hplace⟩ : t.Placed id := h.placed_of_course hcourse t.placed_root
  obtain ⟨node, hnode⟩ : ∃ node, t.node? id = some node :=
    ⟨_, List.getElem?_eq_getElem (h.lt_size_of_descend hplace)⟩
  rw [directory?, hnode] at hnone
  rw [target?, hnode] at htarget
  rw [content?, hnode]
  cases node with
  | directory directory => cases hnone
  | file content => rfl
  | link target => cases htarget

/-! ## The first try -/

/-- Where the name is there already, whatever it leads to, no directory is made. -/
theorem Sound.makeDirectory_of_child (h : t.Sound) (hpath : IsPath (names ++ [name]))
    (hcourse : t.Course linkLimit root (names.map Step.name) (.node above))
    (hchild : (t.child? above name).isSome) (here : NodeId) :
    t.makeDirectory here (Path.rooted (names ++ [name])) = .error .exists := by
  obtain ⟨next, hnext⟩ := Option.isSome_iff_exists.mp hchild
  obtain ⟨directory, hdirectory, _⟩ := Option.bind_eq_some_iff.mp hnext
  obtain ⟨front, hfront⟩ : t.Placed above := h.placed_of_course hcourse t.placed_root
  have henter := h.nested.enter_of_child hfront hdirectory hnext
  unfold makeDirectory makeNode
  rw [lastStep?_rooted here hpath.isName hpath.length_le]
  simp only [hcourse.walk_eq, hdirectory, bind, Except.bind, henter]

/-- Where the names before the last lead nowhere, no directory is made either. -/
theorem makeDirectory_of_lookUp_missing (hpath : IsPath (names ++ [name]))
    (hmissing : t.lookUp here (Path.rooted names) = .error .noEntry) :
    t.makeDirectory here (Path.rooted (names ++ [name])) = .error .noEntry := by
  have hfront := hpath.of_append
  rw [lookUp_rooted_eq hfront.isName hfront.length_le] at hmissing
  unfold makeDirectory makeNode
  rw [lastStep?_rooted here hpath.isName hpath.length_le]
  cases hwalk : t.walk false linkLimit root (names.map Step.name) with
  | error fault =>
    rw [hwalk] at hmissing
    cases hmissing
    rfl
  | ok arrival =>
    cases arrival with
    | vacant place name => rfl
    | node id =>
      rw [hwalk] at hmissing
      cases hmissing

/-- A directory that names lead to, be it through links, is left alone. -/
theorem Sound.ensureLast_of_course (h : t.Sound) {path : Path} (hanchor : path.anchor = .root)
    (hpath : IsPath path.parts)
    (hcourse : t.Course linkLimit root (path.parts.map Step.name) (.node id))
    (hdirectory : (t.directory? id).isSome) (here : NodeId) :
    t.makeDirectory here path.toText = .error .exists ∧
      t.ensureLast here path = (t, .ok ()) := by
  have htext : path.toText = Path.rooted path.parts := Path.toText_of_root hanchor
  have hexists : t.makeDirectory here path.toText = .error .exists := by
    rw [htext]
    rcases List.eq_nil_or_concat path.parts with hnil | ⟨front, last, hparts⟩
    · rw [hnil]
      exact makeDirectory_of_directory here h.toWellFormed (by decide) h.at?_nil
    · rw [List.concat_eq_append] at hparts
      rw [hparts] at hcourse hpath ⊢
      obtain ⟨above, hfront, hchild⟩ := hcourse.exists_child
      exact h.makeDirectory_of_child hpath hfront hchild here
  have hleads : t.leadsToDirectory here path.toText = .ok true := by
    rw [htext]
    exact (leadsToDirectory_eq_true_iff (nul_not_mem_rooted hpath.isName)).mpr
      ⟨id, hpath.lookUp_eq_ok_iff.mpr hcourse, hdirectory⟩
  refine ⟨hexists, ?_⟩
  unfold ensureLast settleFor
  rw [hexists]
  simp only [hleads]

/-! ## A name that is in the way -/

/-- The last of the names is in the way: it is taken in the directory that the names before it lead
to, links followed, and the names do not lead to a directory. -/
structure Blocked (t : Tree) (here : NodeId) (names : List String) : Prop where
  /-- The last name is taken. -/
  exists_child : ∃ front last above, names = front ++ [last] ∧
    t.lookUp here (Path.rooted front) = .ok above ∧ (t.child? above last).isSome
  /-- The names do not lead to a directory. -/
  directory?_eq_none : ∀ id, t.lookUp here (Path.rooted names) = .ok id → t.directory? id = none

section Blocked

variable (hblocked : t.Blocked here names)

include hblocked

/-- No directory is behind a name that is in the way. -/
theorem Blocked.not_course (hpath : IsPath (names ++ rest))
    (hcourse : t.Course linkLimit root ((names ++ rest).map Step.name) (.node id)) :
    ¬ (t.directory? id).isSome := by
  intro hdirectory
  obtain ⟨above, habove, hsome⟩ := hcourse.exists_directory_of_append hdirectory
  have hnone := hblocked.directory?_eq_none above (hpath.of_append.lookUp_eq_ok_iff.mpr habove)
  rw [hnone] at hsome
  cases hsome

/-- What is in the way is a file, or a link that leads to a file or nowhere. -/
theorem Blocked.exists_file_or_link (h : t.Sound) (hpath : IsPath names) :
    ∃ front last above next, names = front ++ [last] ∧
      t.lookUp here (Path.rooted front) = .ok above ∧ t.child? above last = some next ∧
      ((t.content? next).isSome ∨ (t.target? next).isSome ∧
        ((∃ fault, t.lookUp here (Path.rooted names) = .error fault) ∨
          ∃ id, t.lookUp here (Path.rooted names) = .ok id ∧ (t.content? id).isSome)) := by
  obtain ⟨front, last, above, rfl, hlookUp, hchild⟩ := hblocked.exists_child
  obtain ⟨next, hnext⟩ := Option.isSome_iff_exists.mp hchild
  refine ⟨front, last, above, next, rfl, hlookUp, hnext, ?_⟩
  have hfront := hpath.of_append.lookUp_eq_ok_iff.mp hlookUp
  obtain ⟨directory, hdirectory, _⟩ := Option.bind_eq_some_iff.mp hnext
  obtain ⟨node, hnode⟩ : ∃ node, t.node? next = some node :=
    ⟨_, List.getElem?_eq_getElem (h.lt_size above last next hnext)⟩
  rw [content?_eq_bind, target?_eq_bind, hnode]
  cases node with
  | file content => exact Or.inl rfl
  | link target =>
    refine Or.inr ⟨rfl, ?_⟩
    cases hanswer : t.lookUp here (Path.rooted (front ++ [last])) with
    | error fault => exact Or.inl ⟨fault, rfl⟩
    | ok id =>
      exact Or.inr ⟨id, rfl, h.isSome_content?_of_course (hpath.lookUp_eq_ok_iff.mp hanswer)
        (hblocked.directory?_eq_none id hanswer)⟩
  | directory found =>
    -- The names would lead to a directory.
    have hfound : t.directory? next = some found := by rw [directory?, hnode]
    obtain ⟨placed, hplaced⟩ : t.Placed above := h.placed_of_course hfront t.placed_root
    have hstep : t.Course 0 above [.name last] (.node next) :=
      .pass hdirectory (h.nested.enter_of_child hplaced hdirectory hnext)
        (target?_of_directory? hfound) .here
    have hcourse :
        t.Course linkLimit root ((front ++ [last] ++ []).map Step.name) (.node next) := by
      rw [List.append_nil, List.map_append]
      exact hfront.append hstep
    rw [← List.append_nil (front ++ [last])] at hpath
    exact absurd (by rw [hfound]; rfl) (hblocked.not_course hpath hcourse)

variable {path : Path} (hanchor : path.anchor = .root) (hpath : IsPath (names ++ rest))
  (hparts : path.parts = names ++ rest)

include hanchor hpath hparts

/-- At a name that is in the way and behind it the second try is refused. -/
theorem Blocked.ensureLast_eq_error (h : t.Sound) :
    ∃ failure, t.ensureLast here path = (t, .error failure) := by
  have hlength : path.toText.utf8ByteSize ≤ pathLimit := by
    rw [Path.toText_of_root hanchor, hparts]
    exact hpath.length_le
  rcases List.eq_nil_or_concat rest with rfl | ⟨back, last, rfl⟩
  · obtain ⟨front, last, above, rfl, hlookUp, hchild⟩ := hblocked.exists_child
    have hfront := hpath.of_append.of_append.lookUp_eq_ok_iff.mp hlookUp
    have hnames := hpath.of_append.isName
    rw [List.append_nil] at hparts
    rcases h.ensureLast_cases here hanchor hlength hnames hparts with
      ⟨place, hcourse, hvacant, _⟩ | ⟨id, hcourse, hsome, _⟩ | hrefused
    · obtain rfl := hfront.node_inj hcourse
      rw [hvacant.child?_eq] at hchild
      cases hchild
    · rw [← List.append_nil (front ++ [last])] at hcourse
      exact absurd hsome (hblocked.not_course hpath hcourse)
    · exact hrefused
  · rw [List.concat_eq_append, ← List.append_assoc] at hpath hparts
    rcases h.ensureLast_cases here hanchor hlength hpath.isName hparts with
      ⟨place, hcourse, hvacant, _⟩ | ⟨id, hcourse, hsome, _⟩ | hrefused
    · obtain ⟨directory, hdirectory⟩ := hvacant.exists_directory
      exact absurd (by rw [hdirectory]; rfl) (hblocked.not_course hpath.of_append hcourse)
    · rw [List.append_assoc] at hpath hcourse
      exact absurd hsome (hblocked.not_course hpath hcourse)
    · exact hrefused

/-- **A name that is in the way.** No directory behind it is made, and none above it either. -/
theorem Blocked.ensureWithin_eq_error (h : t.Sound) (depth : Nat) :
    ∃ failure, t.ensureWithin here depth path = (t, .error failure) := by
  -- The induction goes up the path, to the name that is in the way.
  induction rest using List.reverseRecOn generalizing path depth with
  | nil =>
    have hexists : t.makeDirectory here path.toText = .error .exists := by
      rw [Path.toText_of_root hanchor, hparts, List.append_nil]
      obtain ⟨front, last, above, rfl, hlookUp, hchild⟩ := hblocked.exists_child
      exact h.makeDirectory_of_child hpath.of_append
        (hpath.of_append.of_append.lookUp_eq_ok_iff.mp hlookUp) hchild here
    rw [ensureWithin_eq_ensureLast (by simp [hexists])]
    exact hblocked.ensureLast_eq_error hanchor hpath hparts h
  | append_singleton rest last ih =>
    by_cases hstart : t.makeDirectory here path.toText = .error .noEntry
    · cases depth with
      | zero => exact hblocked.ensureLast_eq_error hanchor hpath hparts h
      | succ depth =>
        rw [← List.append_assoc] at hpath hparts
        have habove : path.parent.parts = names ++ rest := by
          simp only [Path.parent, hparts, List.dropLast_concat]
        have hrooted : path.parent.anchor = .root := hanchor
        obtain ⟨failure, hrefused⟩ := ih hrooted hpath.of_append habove depth
        unfold ensureWithin
        rw [hstart]
        simp only [hrefused]
        exact ⟨_, rfl⟩
    · rw [ensureWithin_eq_ensureLast hstart]
      exact hblocked.ensureLast_eq_error hanchor hpath hparts h

end Blocked

/-! ## How far directories lead -/

/-- Names lead to a directory as far as they are found, links followed, and the first name that is
missing is vacant in it. -/
structure Frontier (t : Tree) (base found missing : List String) (id : NodeId) : Prop where
  /-- The names that are found lead to the node. -/
  course : t.Course linkLimit root ((base ++ found).map Step.name) (.node id)
  /-- It is a directory. -/
  isDirectory : (t.directory? id).isSome
  /-- The first missing name is vacant in it. -/
  vacant : ∀ first ∈ missing.head?, t.Vacant id first

/-- **From above.** Either directories lead to a first vacant name, or a name is in the way. -/
theorem frontier_or_blocked (hpath : IsPath (base ++ rest)) (here : NodeId)
    (hcourse : t.Course linkLimit root (base.map Step.name) (.node above))
    (hdirectory : (t.directory? above).isSome) :
    (∃ found missing id, rest = found ++ missing ∧ t.Frontier base found missing id) ∨
      ∃ names ∈ levels base rest, t.Blocked here names := by
  induction rest generalizing base above with
  | nil =>
    refine Or.inl ⟨[], [], above, rfl, ?_, hdirectory, fun first hfirst => by cases hfirst⟩
    rwa [List.append_nil]
  | cons name rest ih =>
    have hfirst : IsPath (base ++ [name]) :=
      hpath.of_prefix ((List.prefix_append_right_inj base).mpr (List.prefix_append [name] rest))
    cases hchild : t.child? above name with
    | none =>
      -- The name is vacant, so everything from here on is missing.
      obtain ⟨directory, hsome⟩ := Option.isSome_iff_exists.mp hdirectory
      have hvacant : t.Vacant above name :=
        ⟨⟨directory, hsome⟩, hchild, hpath.isName name (by simp)⟩
      refine Or.inl ⟨[], name :: rest, above, rfl, ?_, hdirectory, fun first hhead => ?_⟩
      · rwa [List.append_nil]
      · obtain rfl : name = first := Option.some.inj hhead
        exact hvacant
    | some next =>
      by_cases hleads : ∃ id, t.Course linkLimit root ((base ++ [name]).map Step.name) (.node id) ∧
          (t.directory? id).isSome
      · obtain ⟨id, hnext, hsome⟩ := hleads
        rw [List.append_cons] at hpath
        rcases ih hpath hnext hsome with ⟨found, missing, last, rfl, hfrontier⟩ | ⟨names, hmem, hin⟩
        · have hcourse' := hfrontier.course
          rw [← List.append_cons] at hcourse'
          exact Or.inl ⟨name :: found, missing, last, rfl, hcourse', hfrontier.isDirectory,
            hfrontier.vacant⟩
        · exact Or.inr ⟨names, List.mem_cons_of_mem _ hmem, hin⟩
      · refine Or.inr ⟨base ++ [name], List.mem_cons_self, ?_, fun id hlookUp => ?_⟩
        · exact ⟨base, name, above, rfl, hfirst.of_append.lookUp_eq_ok_iff.mpr hcourse,
            by rw [hchild]; rfl⟩
        · by_contra hnone
          exact hleads ⟨id, hfirst.lookUp_eq_ok_iff.mp hlookUp, Option.isSome_iff_ne_none.mpr hnone⟩

/-- Directories lead as far if less is asked for. -/
theorem Frontier.of_append {back : List String}
    (hfrontier : t.Frontier base found (missing ++ back) id) :
    t.Frontier base found missing id where
  course := hfrontier.course
  isDirectory := hfrontier.isDirectory
  vacant := fun first hhead =>
    hfrontier.vacant first (List.mem_head?_append_of_mem_head? hhead)

section Frontier

variable (h : t.Sound) (hfrontier : t.Frontier base found missing id)

include h hfrontier

/-- What is there when the missing directories have been made. -/
theorem Frontier.dug (hpath : IsPath (base ++ found ++ missing))
    (hplace : t.descend place = some id) : t.Dug (base ++ found) place id missing :=
  h.dug hfrontier.course hplace hfrontier.isDirectory
    (fun name hname => hpath.isName name (List.mem_append_right _ hname)) hfrontier.vacant

/-- The missing names lead nowhere. -/
theorem Frontier.lookUp_eq_noEntry {front : List String} (hpath : IsPath (base ++ found ++ front))
    (hne : front ≠ []) (hfront : front <+: missing) (here : NodeId) :
    t.lookUp here (Path.rooted (base ++ found ++ front)) = .error .noEntry := by
  obtain ⟨first, behind, rfl⟩ := List.exists_cons_of_ne_nil hne
  obtain ⟨back, rfl⟩ := hfront
  have hvacant := h.course_vacant hfrontier.course (hfrontier.vacant first rfl)
  rw [lookUp_rooted_eq hpath.isName hpath.length_le]
  cases behind with
  | nil =>
    rw [hvacant.walk_eq]
    rfl
  | cons second behind =>
    have hsettle : (t.walk false linkLimit root ((base ++ found ++ [first]).map Step.name)).bind
        Arrival.settle = .error .noEntry := by
      rw [hvacant.walk_eq]
      rfl
    rw [List.append_cons, List.map_append, walk_append_of_settle (by simp) hsettle]
    rfl

/-- **From the deepest up.** Where directories lead to a first vacant name, all from that name on
are made there. -/
theorem Frontier.ensureWithin_eq (hpath : IsPath (base ++ found ++ missing)) {path : Path}
    (hanchor : path.anchor = .root) (hparts : path.parts = base ++ found ++ missing) {depth : Nat}
    (hdepth : missing.length ≤ depth) (here : NodeId) :
    t.ensureWithin here depth path = ((t.dig id missing).1, .ok ()) := by
  -- The induction goes up the path, to the first missing name.
  induction missing using List.reverseRecOn generalizing path depth with
  | nil =>
    rw [List.append_nil] at hpath hparts
    obtain ⟨hexists, hensured⟩ := h.ensureLast_of_course hanchor (hparts ▸ hpath)
      (hparts ▸ hfrontier.course) hfrontier.isDirectory here
    rw [ensureWithin_eq_ensureLast (by simp [hexists]), hensured]
    rfl
  | append_singleton missing name ih =>
    rw [← List.append_assoc] at hpath hparts
    have htext : path.toText = Path.rooted (base ++ found ++ missing ++ [name]) := by
      rw [Path.toText_of_root hanchor, hparts]
    obtain ⟨place, hplace⟩ : t.Placed id := h.placed_of_course hfrontier.course t.placed_root
    have hdug := hfrontier.of_append.dug h hpath.of_append hplace
    have hvacant := hdug.vacant_last hfrontier.vacant (hpath.isName name (by simp))
    have hmade : (t.dig id missing).1.makeDirectory here path.toText =
        .ok (t.dig id (missing ++ [name])).1 := by
      rw [htext, dig_concat]
      exact (hdug.sound.makeDirectory_rooted_iff here hpath.isName hpath.length_le).mpr
        ⟨_, (hdug.along missing List.prefix_rfl).1, hvacant, rfl⟩
    have hlast : (t.dig id missing).1.ensureLast here path =
        ((t.dig id (missing ++ [name])).1, .ok ()) := by
      unfold ensureLast
      rw [hmade]
    cases missing with
    | nil =>
      -- The directory above is there, so the first try makes the last one.
      rw [dig_nil] at hmade hlast
      rw [ensureWithin_eq_ensureLast (by simp [hmade]), hlast]
    | cons first rest =>
      -- The first try finds the directory above missing; the second one comes after that is made.
      have hstart : t.makeDirectory here path.toText = .error .noEntry := by
        rw [htext]
        exact makeDirectory_of_lookUp_missing hpath (hfrontier.lookUp_eq_noEntry h hpath.of_append
          (by simp) (List.prefix_append _ _) here)
      obtain ⟨depth, rfl⟩ : ∃ less, depth = less + 1 :=
        Nat.exists_eq_succ_of_ne_zero (by
          rintro rfl
          simp at hdepth)
      have hshallower : (first :: rest).length ≤ depth := by
        rw [List.length_append, List.length_singleton] at hdepth
        omega
      have habove : path.parent.parts = base ++ found ++ (first :: rest) := by
        simp only [Path.parent, hparts, List.dropLast_concat]
      have hrooted : path.parent.anchor = .root := hanchor
      have hfirst := ih hfrontier.of_append hpath.of_append hrooted habove hshallower
      unfold ensureWithin
      rw [hstart]
      simp only [hfirst]
      exact hlast

end Frontier

/-! ## What becomes of the directories -/

/-- Each level begins the path to the deepest. -/
theorem prefix_of_mem_levels (h : names ∈ levels base rest) : names <+: base ++ rest := by
  induction rest generalizing base with
  | nil => cases h
  | cons name rest ih =>
    rw [List.append_cons]
    rcases List.mem_cons.mp h with rfl | hbelow
    · exact List.prefix_append _ _
    · exact ih hbelow

/-- What has become of a tree in which directories were asked for. The names up to a directory were
found, and the directories along the others have been made there. -/
structure Completed (before after : Tree) (here : NodeId) (base found missing place : List String)
    (id : NodeId) : Prop where
  /-- The names that were found led to the directory, links followed. -/
  lookUp_eq : before.lookUp here (Path.rooted (base ++ found)) = .ok id
  /-- The directory had the place. -/
  descend_eq : before.descend place = some id
  /-- It was a directory. -/
  isDirectory : (before.directory? id).isSome
  /-- It did not have the first name that was missing. -/
  child?_eq_none : ∀ first ∈ missing.head?, before.child? id first = none
  /-- The directories along the missing names have been made there, and that is all. -/
  after_eq : after = (before.dig id missing).1
  /-- Along all names there are directories now. -/
  leads : ∀ names ∈ levels base (found ++ missing), ∃ node,
    after.lookUp here (Path.rooted names) = .ok node ∧ (after.directory? node).isSome
  /-- Those along the names that were found are the same as before. -/
  kept : ∀ names ∈ levels base found, ∃ node,
    before.lookUp here (Path.rooted names) = .ok node ∧ (before.directory? node).isSome ∧
    after.lookUp here (Path.rooted names) = .ok node
  /-- The others led nowhere. They are new, each below the place of the directory. -/
  made : ∀ front, front ≠ [] → front <+: missing →
    before.lookUp here (Path.rooted (base ++ found ++ front)) = .error .noEntry ∧
    ∃ node, before.size ≤ node ∧ after.descend (place ++ front) = some node ∧
      after.lookUp here (Path.rooted (base ++ found ++ front)) = .ok node
  /-- Nothing else is shown than before. -/
  at?_eq : after.at? = withPlaces (levels place missing) before.at?
  /-- All other nodes are as they were, with all their entries. -/
  node?_eq : ∀ node, node < before.size → (node = id → missing = []) →
    after.node? node = before.node? node
  /-- The directory has the entries that it had, but for the first name that was missing. -/
  child?_eq : ∀ name, missing.head? ≠ some name → after.child? id name = before.child? id name

/-- What has become of a tree is told by how far directories led. -/
theorem Frontier.completed (h : t.Sound) (hfrontier : t.Frontier base found missing id)
    (hpath : IsPath (base ++ found ++ missing)) (hplace : t.descend place = some id)
    (here : NodeId) : Completed t (t.dig id missing).1 here base found missing place id := by
  have hdug := hfrontier.dug h hpath hplace
  exact {
    lookUp_eq := hpath.of_append.lookUp_eq_ok_iff.mpr hfrontier.course
    descend_eq := hplace
    isDirectory := hfrontier.isDirectory
    child?_eq_none := fun first hhead => (hfrontier.vacant first hhead).child?_eq
    after_eq := rfl
    leads := fun names hmem => by
      obtain ⟨hcourse, _, hsome⟩ := hdug.along missing List.prefix_rfl
      have hfront := prefix_of_mem_levels hmem
      rw [← List.append_assoc] at hfront
      obtain ⟨back, hback⟩ := hfront
      rw [← hback] at hcourse hpath
      obtain ⟨node, hnode, hnodeSome⟩ := hcourse.exists_directory_of_append hsome
      exact ⟨node, hpath.of_append.lookUp_eq_ok_iff.mpr hnode, hnodeSome⟩
    kept := fun names hmem => by
      obtain ⟨back, hback⟩ := prefix_of_mem_levels hmem
      have hcourse := hfrontier.course
      have hfound := hpath.of_append
      rw [← hback] at hcourse hfound
      obtain ⟨node, hnode, hsome⟩ := hcourse.exists_directory_of_append hfrontier.isDirectory
      exact ⟨node, hfound.of_append.lookUp_eq_ok_iff.mpr hnode, hsome,
        hfound.of_append.lookUp_eq_ok_iff.mpr (hdug.course_of _ _ _ _ hnode)⟩
    made := fun front hne hfront => by
      have hshort : IsPath (base ++ found ++ front) :=
        hpath.of_prefix ((List.prefix_append_right_inj _).mpr hfront)
      obtain ⟨hcourse, hdescend, _⟩ := hdug.along front hfront
      refine ⟨hfrontier.lookUp_eq_noEntry h hshort hne hfront here, _, ?_, hdescend,
        hshort.lookUp_eq_ok_iff.mpr hcourse⟩
      obtain ⟨back, rfl⟩ := hfront
      exact (hfrontier.of_append.dug h hshort hplace).size_le hne
    at?_eq := hdug.at?_eq
    node?_eq := hdug.node?_eq
    child?_eq := hdug.child?_eq }

section Ensure

variable (here : NodeId) {path : Path} (hanchor : path.anchor = .root)
  (hpath : IsPath (base ++ rest)) (hparts : path.parts = base ++ rest)

include hanchor hpath hparts

/-- A name that is in the way of one directory is in the way of the deepest. -/
theorem Sound.ensure_eq_error_of_blocked (h : t.Sound) (hmem : names ∈ levels base rest)
    (hblocked : t.Blocked here names) :
    ∃ failure, t.ensure here path = (t, .error failure) := by
  obtain ⟨back, hback⟩ := prefix_of_mem_levels hmem
  rw [← hback] at hpath hparts
  exact hblocked.ensureWithin_eq_error hanchor hpath hparts h _

variable (hbase : t.at? base = some .directory)

include hbase

/-- **Directories that can be made.** Below a directory that is there all are made that are missing,
unless a name is in the way, and then nothing is made. -/
theorem Sound.ensure_cases_of_path (h : t.Sound) :
    (∃ found missing place id, rest = found ++ missing ∧
      t.ensure here path = ((t.dig id missing).1, .ok ()) ∧
      Completed t (t.dig id missing).1 here base found missing place id) ∨
    (∃ names ∈ levels base rest, t.Blocked here names) ∧
      ∃ failure, t.ensure here path = (t, .error failure) := by
  obtain ⟨above, directory, habove, hdirectory⟩ := exists_directory_of_at? hbase
  have hlookUp := h.lookUp_rooted here hpath.of_append.length_le habove
    (target?_of_directory? hdirectory)
  have hcourse := hpath.of_append.lookUp_eq_ok_iff.mp hlookUp
  rcases frontier_or_blocked hpath here hcourse (by rw [hdirectory]; rfl) with
    ⟨found, missing, id, rfl, hfrontier⟩ | ⟨names, hmem, hblocked⟩
  · left
    rw [← List.append_assoc] at hpath hparts
    obtain ⟨place, hplace⟩ : t.Placed id := h.placed_of_course hfrontier.course t.placed_root
    have hdepth : missing.length ≤ path.parts.length := by
      rw [hparts, List.length_append]
      exact Nat.le_add_left _ _
    exact ⟨found, missing, place, id, rfl,
      hfrontier.ensureWithin_eq h hpath hanchor hparts hdepth here,
      hfrontier.completed h hpath hplace here⟩
  · exact Or.inr ⟨⟨names, hmem, hblocked⟩,
      h.ensure_eq_error_of_blocked here hanchor hpath hparts hmem hblocked⟩

end Ensure

end Fixtures.Tree
