import Fixtures.Proofs.Path
import Fixtures.Proofs.Tree.Entries
import Fixtures.Proofs.Tree.Walk
import Fixtures.Tree.Ensure

/-!
# Walks along names

A path from the root whose parts are names is walked down entry by entry, and no link is met where
what is shown at its beginnings are directories. So what is shown along such a path decides what
becomes of it: whether it is found, whether a directory is made there, and with which others.
-/

namespace Fixtures

namespace Tree

/-- The step of a name goes to the entry of that name. -/
theorem IsName.ofPiece_eq {name : String} (h : IsName name) :
    Step.ofPiece name.toList = .name name := by
  have hstay : name.toList ≠ ['.'] := fun hdot => h.isPart.2.1 (String.toList_inj.mp hdot)
  have hup : name.toList ≠ ['.', '.'] := fun hdots => h.ne_up (String.toList_inj.mp hdots)
  rw [Step.ofPiece, if_neg hstay, if_neg hup, String.ofList_toList]

variable {t : Tree} {names : List String} {name : String} {id : NodeId}

/-- The steps of a path along names are the names. -/
theorem stepsOfChars_rooted (hnames : ∀ name ∈ names, IsName name) :
    stepsOfChars (Path.rooted names).toList = names.map Step.name := by
  have hparts : ∀ name ∈ names, Path.IsPart name := fun name hname => (hnames name hname).isPart
  rw [Path.toList_rooted]
  by_cases hnil : names = []
  · subst hnil
    rfl
  · have hsteps : ((splitSlashes ('/' :: Path.joinParts names)).filter fun piece =>
        !piece.isEmpty).map Step.ofPiece = names.map Step.name := by
      have hkept : (names.map String.toList).filter (fun piece => !piece.isEmpty) =
          names.map String.toList := by
        apply List.filter_eq_self.mpr
        intro piece hpiece
        obtain ⟨name, hname, rfl⟩ := List.mem_map.mp hpiece
        simpa using (hparts name hname).1
      have hsplit : splitSlashes ('/' :: Path.joinParts names) = [] :: names.map String.toList := by
        rw [splitSlashes, if_pos rfl, Path.splitSlashes_joinParts hparts hnil]
      rw [hsplit, List.filter_cons_of_neg (by simp), hkept, List.map_map]
      exact List.map_congr_left fun name hname => (hnames name hname).ofPiece_eq
    have hend : ('/' :: Path.joinParts names).getLast? ≠ some '/' := by
      have hjoined : Path.joinParts names ≠ [] := by
        intro hempty
        have hread := Path.partsOfChars_joinParts hparts
        rw [hempty] at hread
        exact hnil hread.symm
      rw [List.getLast?_cons_of_ne_nil hjoined]
      exact Path.getLast?_joinParts_ne hparts
    simp only [stepsOfChars, hsteps, hend, decide_false, Bool.false_and, Bool.false_eq_true,
      if_false]

/-- A path along names begins at the root. -/
theorem origin_rooted (names : List String) (here : NodeId) :
    origin (Path.rooted names).toList here = root := by
  rw [Path.toList_rooted]
  rfl

/-- The steps of a path along names that is not too long. -/
theorem steps_rooted (hnames : ∀ name ∈ names, IsName name)
    (hlength : (Path.rooted names).utf8ByteSize ≤ pathLimit) :
    steps (Path.rooted names) = .ok (names.map Step.name) := by
  have hne : Path.rooted names ≠ "" := by
    intro hempty
    have htext := Path.toList_rooted names
    rw [hempty] at htext
    cases htext
  rw [← stepsOfChars_rooted hnames]
  simp [steps, hne, Nat.not_lt_of_le hlength]

/-- A walk goes along, whatever it does behind a link. -/
theorem exists_walk_eq (t : Tree) (creating : Bool) (links : Nat) :
    ∃ follow, t.walk creating links = t.passAlong creating follow := by
  cases links with
  | zero => exact ⟨_, rfl⟩
  | succ links => exact ⟨_, rfl⟩

namespace Nested

/-- A step goes to the entry of its name. -/
theorem enter_of_child (h : t.Nested) {directory : Directory} {next : NodeId}
    (hid : t.descend names = some id) (hdirectory : t.directory? id = some directory)
    (hchild : t.child? id name = some next) :
    enter directory id (.name name) = .ok (.node next) := by
  have hshort : ¬ nameLimit < name.utf8ByteSize :=
    Nat.not_lt_of_le (h.isName id name next hchild).short
  rw [child?, hdirectory, Option.bind_some] at hchild
  simp [enter, h.removed_eq_false hid hdirectory, hshort, hchild]

/-- Names that lead somewhere are walked down, unless there is a link at their end. -/
theorem passAlong_names (h : t.Nested) (creating : Bool)
    (follow : NodeId → List Step → Except Fault Arrival) (hid : t.descend names = some id)
    (htarget : t.target? id = none) {rest : List Step} (hrest : Step.finalSlash ∉ rest) :
    t.passAlong creating follow root (names.map Step.name ++ rest) =
      t.passAlong creating follow id rest := by
  induction names using List.reverseRecOn generalizing id rest with
  | nil =>
    cases hid
    rfl
  | append_singleton names name ih =>
    obtain ⟨above, habove, hchild⟩ := exists_of_descend_append hid
    obtain ⟨directory, hdirectory, _⟩ := directory?_of_child? hchild
    have hslash : Step.finalSlash ∉ Step.name name :: rest := by simpa using hrest
    have hlast : ¬ rest = [.finalSlash] := by
      rintro rfl
      exact hrest List.mem_cons_self
    have henter := h.enter_of_child habove hdirectory hchild
    rw [List.map_append, List.append_assoc]
    refine (ih habove (target?_of_directory? hdirectory) hslash).trans ?_
    simp [passAlong, hdirectory, henter, hlast, htarget]

end Nested

namespace WellFormed

/-- A step to a name that is missing finds its place vacant. -/
theorem enter_of_missing (h : t.WellFormed) {directory : Directory}
    (hid : t.descend names = some id) (hdirectory : t.directory? id = some directory)
    (hname : IsName name) (hmissing : t.child? id name = none) :
    enter directory id (.name name) = .ok (.vacant id name) := by
  have hshort : ¬ nameLimit < name.utf8ByteSize := Nat.not_lt_of_le hname.short
  rw [child?, hdirectory, Option.bind_some] at hmissing
  simp [enter, h.nested.removed_eq_false hid hdirectory, hshort, hmissing]

/-- Behind a directory that does not have the next name a walk ends: at the vacant place, if it is
the last name, or else nowhere. -/
theorem passAlong_missing (h : t.WellFormed) (creating : Bool)
    (follow : NodeId → List Step → Except Fault Arrival) {directory : Directory}
    (hid : t.descend names = some id) (hdirectory : t.directory? id = some directory)
    (hname : IsName name) (hmissing : t.child? id name = none) {rest : List Step}
    (hrest : Step.finalSlash ∉ rest) :
    t.passAlong creating follow root (names.map Step.name ++ .name name :: rest) =
      if rest.isEmpty then .ok (.vacant id name) else .error .noEntry := by
  have hslash : Step.finalSlash ∉ Step.name name :: rest := by simpa using hrest
  have hlast : ¬ rest = [.finalSlash] := by
    rintro rfl
    exact hrest List.mem_cons_self
  have henter := h.enter_of_missing hid hdirectory hname hmissing
  rw [h.nested.passAlong_names creating follow hid (target?_of_directory? hdirectory) hslash]
  simp [passAlong, hdirectory, henter, hlast]

end WellFormed

/-- All that is shown on the way along names is directories, down to where nothing is. -/
def Free (t : Tree) (names : List String) : Prop :=
  ∀ front, front <+: names → t.at? front = none ∨ t.at? front = some .directory

/-- Names that lead nowhere come behind some that lead to a node which does not have the next. -/
theorem exists_missing (hnone : t.descend names = none) :
    ∃ front name back id, names = front ++ name :: back ∧ t.descend front = some id ∧
      t.child? id name = none := by
  induction names using List.reverseRecOn with
  | nil => cases hnone
  | append_singleton names last ih =>
    cases hnames : t.descend names with
    | none =>
      obtain ⟨front, name, back, id, rfl, hid, hmissing⟩ := ih hnames
      exact ⟨front, name, back ++ [last], id, by simp, hid, hmissing⟩
    | some id =>
      rw [descend_append_singleton, hnames, Option.bind_some] at hnone
      exact ⟨names, last, [], id, rfl, hnames, hnone⟩

/-- A directory is shown at names that lead to it. -/
theorem exists_directory_of_at? (h : t.at? names = some .directory) :
    ∃ id directory, t.descend names = some id ∧ t.directory? id = some directory := by
  obtain ⟨id, hid, hsome⟩ := at?_eq_directory_iff.mp h
  obtain ⟨directory, hdirectory⟩ := Option.isSome_iff_exists.mp hsome
  exact ⟨id, directory, hid, hdirectory⟩

/-- The root is shown as a directory. -/
theorem WellFormed.at?_nil (h : t.WellFormed) : t.at? [] = some .directory := by
  obtain ⟨directory, hroot, _⟩ := h.root_stands
  exact at?_eq_directory_iff.mpr ⟨root, rfl, by simp [hroot]⟩

/-- What comes before a directory is directories. -/
theorem at?_of_prefix_directory {front : List String} (h : t.at? names = some .directory)
    (hfront : front <+: names) : t.at? front = some .directory := by
  induction names using List.reverseRecOn with
  | nil => rwa [List.prefix_nil.mp hfront]
  | append_singleton names last ih =>
    rcases List.prefix_concat_iff.mp hfront with rfl | hshorter
    · exact h
    · have hsome : (t.at? (names ++ [last])).isSome := by
        rw [h]
        rfl
      exact ih (at?_eq_directory_of_append hsome) hshorter

section LastStep

variable (here : NodeId) (hnames : ∀ other ∈ names ++ [name], IsName other)
  (hlength : (Path.rooted (names ++ [name])).utf8ByteSize ≤ pathLimit)

include hnames hlength

/-- The last step of a path along names is taken where a walk along the others ends. -/
theorem lastStep?_rooted (t : Tree) :
    t.lastStep? here (Path.rooted (names ++ [name])) =
      match t.walk false linkLimit root (names.map Step.name) with
      | .error fault => .error fault
      | .ok (.vacant _ _) => .error .noEntry
      | .ok (.node above) =>
        match t.directory? above with
        | none => .error .notDirectory
        | some directory => .ok (some (above, directory, .name name)) := by
  have hkept : ((names ++ [name]).map Step.name).filter (fun step => step != .finalSlash) =
      names.map Step.name ++ [.name name] := by
    have hmap : names.map Step.name ++ [.name name] = (names ++ [name]).map Step.name := by simp
    rw [hmap]
    apply List.filter_eq_self.mpr
    intro step hstep
    obtain ⟨other, _, rfl⟩ := List.mem_map.mp hstep
    rfl
  unfold lastStep?
  simp only [steps_rooted hnames hlength, bind, Except.bind, hkept, List.getLast?_concat,
    List.dropLast_concat, origin_rooted]
  cases t.walk false linkLimit root (names.map Step.name) with
  | error fault => rfl
  | ok arrival => cases arrival <;> rfl

variable (h : t.WellFormed)

include h

/-- The last step of a path along names is taken in the directory that the others lead to. -/
theorem lastStep?_of_directory {directory : Directory} (hid : t.descend names = some id)
    (hdirectory : t.directory? id = some directory) :
    t.lastStep? here (Path.rooted (names ++ [name])) =
      .ok (some (id, directory, .name name)) := by
  obtain ⟨follow, hwalk⟩ := t.exists_walk_eq false linkLimit
  have harrival := h.nested.passAlong_names false follow hid (target?_of_directory? hdirectory)
    (List.not_mem_nil (a := Step.finalSlash))
  rw [List.append_nil] at harrival
  rw [lastStep?_rooted here hnames hlength, hwalk, harrival]
  simp only [passAlong, hdirectory]

/-- A path along names has no last step where the others lead nowhere. -/
theorem lastStep?_of_missing (hfree : t.Free names) (hnone : t.at? names = none) :
    t.lastStep? here (Path.rooted (names ++ [name])) = .error .noEntry := by
  obtain ⟨follow, hwalk⟩ := t.exists_walk_eq false linkLimit
  obtain ⟨front, missing, back, id, rfl, hid, hmissing⟩ :=
    exists_missing (h.at?_eq_none_iff.mp hnone)
  have hshown : t.at? front = some .directory := by
    refine (hfree front (List.prefix_append front _)).resolve_left fun hnothing => ?_
    rw [h.at?_eq_none_iff.mp hnothing] at hid
    cases hid
  obtain ⟨place, directory, hplace, hdirectory⟩ := exists_directory_of_at? hshown
  obtain rfl : id = place := Option.some.inj (hid.symm.trans hplace)
  have hname : IsName missing := hnames missing (by simp)
  have hslash : Step.finalSlash ∉ back.map Step.name := by simp
  have harrival := h.passAlong_missing false follow hid hdirectory hname hmissing hslash
  rw [lastStep?_rooted here hnames hlength, hwalk, List.map_append, List.map_cons, harrival]
  cases back <;> rfl

end LastStep

/-! ## Making directories -/

section MakeDirectory

variable (here : NodeId)

/-- No directory is made where there is one. -/
theorem makeDirectory_of_directory (h : t.WellFormed)
    (hlength : (Path.rooted names).utf8ByteSize ≤ pathLimit)
    (hshown : t.at? names = some .directory) :
    t.makeDirectory here (Path.rooted names) = .error .exists := by
  obtain ⟨id, _, hid, _⟩ := exists_directory_of_at? hshown
  have hnames := h.isName_of_descend hid
  unfold makeDirectory makeNode
  cases names using List.reverseRecOn with
  | nil => rfl
  | append_singleton names name =>
    obtain ⟨above, habove, hchild⟩ := exists_of_descend_append hid
    obtain ⟨directory, hdirectory, _⟩ := directory?_of_child? hchild
    rw [lastStep?_of_directory here hnames hlength h habove hdirectory]
    simp only [bind, Except.bind, h.nested.enter_of_child habove hdirectory hchild]

variable (h : t.WellFormed) (hnames : ∀ other ∈ names ++ [name], IsName other)
  (hlength : (Path.rooted (names ++ [name])).utf8ByteSize ≤ pathLimit)

include h hnames hlength

/-- A directory is made at a vacant place. -/
theorem makeDirectory_of_vacant {directory : Directory} (hid : t.descend names = some id)
    (hdirectory : t.directory? id = some directory) (hmissing : t.child? id name = none) :
    t.makeDirectory here (Path.rooted (names ++ [name])) =
      .ok (t.addNode id name (.directory { parent := id })) := by
  have hname : IsName name := hnames name (by simp)
  unfold makeDirectory makeNode
  rw [lastStep?_of_directory here hnames hlength h hid hdirectory]
  simp only [bind, Except.bind, h.enter_of_missing hid hdirectory hname hmissing]

/-- No directory is made below one that is missing. -/
theorem makeDirectory_of_missing (hfree : t.Free names) (hnone : t.at? names = none) :
    t.makeDirectory here (Path.rooted (names ++ [name])) = .error .noEntry := by
  unfold makeDirectory makeNode
  rw [lastStep?_of_missing here hnames hlength h hfree hnone]
  rfl

end MakeDirectory

/-- Names that lead to something else than a link are looked up. -/
theorem WellFormed.lookUp_rooted (h : t.WellFormed) (here : NodeId)
    (hlength : (Path.rooted names).utf8ByteSize ≤ pathLimit) (hid : t.descend names = some id)
    (htarget : t.target? id = none) : t.lookUp here (Path.rooted names) = .ok id := by
  obtain ⟨follow, hwalk⟩ := t.exists_walk_eq false linkLimit
  have harrival := h.nested.passAlong_names false follow hid htarget
    (List.not_mem_nil (a := Step.finalSlash))
  rw [List.append_nil] at harrival
  unfold lookUp
  simp only [steps_rooted (h.isName_of_descend hid) hlength, bind, Except.bind, origin_rooted,
    hwalk, harrival, passAlong]

/-- No name has a NUL in it, and so neither has the text of a path along names. -/
theorem nul_not_mem_rooted (hnames : ∀ name ∈ names, IsName name) :
    '\x00' ∉ (Path.rooted names).toList := by
  have hjoined := Path.nul_not_mem_joinParts fun name hname => (hnames name hname).nul_not_mem
  simpa using hjoined

/-- A path along names leads to the directory that is shown there. -/
theorem WellFormed.leadsToDirectory_rooted (h : t.WellFormed) (here : NodeId)
    (hlength : (Path.rooted names).utf8ByteSize ≤ pathLimit)
    (hshown : t.at? names = some .directory) :
    t.leadsToDirectory here (Path.rooted names) = .ok true := by
  obtain ⟨id, directory, hid, hdirectory⟩ := exists_directory_of_at? hshown
  apply (leadsToDirectory_eq_true_iff (nul_not_mem_rooted (h.isName_of_descend hid))).mpr
  exact ⟨id, h.lookUp_rooted here hlength hid (target?_of_directory? hdirectory), by
    simp [hdirectory]⟩

/-- The directory that names lead to has the path along them. -/
theorem WellFormed.namesTo?_of_descend (h : t.WellFormed) {directory : Directory} {fuel : Nat}
    (hid : t.descend names = some id) (hdirectory : t.directory? id = some directory)
    (hfuel : id < fuel) : t.namesTo? fuel id = some names := by
  induction names using List.reverseRecOn generalizing id directory fuel with
  | nil =>
    cases hid
    obtain ⟨fuel, rfl⟩ := Nat.exists_eq_add_of_lt hfuel
    simp [namesTo?]
  | append_singleton names name ih =>
    obtain ⟨above, habove, hchild⟩ := exists_of_descend_append hid
    obtain ⟨holder, hholder, hfind⟩ := directory?_of_child? hchild
    obtain ⟨hparent, _⟩ := h.stands above name id directory hchild hdirectory
    have hsome : (t.directory? id).isSome := by rw [hdirectory]; rfl
    have hlt : above < id := h.child_lt above name id hsome hchild
    have hroot : id ≠ root := Nat.ne_of_gt (Nat.lt_of_le_of_lt (Nat.zero_le above) hlt)
    have hnodup := h.names_nodup above holder hholder
    -- The entry that is found for the node is the one under the last name.
    have hentry : holder.entries.entries.find? (fun entry => entry.2 == id) = some (name, id) := by
      have hmem : (name, id) ∈ holder.entries.entries :=
        (Registry.mem_entries_iff hnodup).mpr hfind
      cases hfound : holder.entries.entries.find? fun entry => entry.2 == id with
      | none => exact absurd (List.find?_eq_none.mp hfound _ hmem) (by simp)
      | some entry =>
        obtain ⟨other, node⟩ := entry
        obtain rfl : node = id := by simpa using List.find?_some hfound
        have hother : t.child? above other = some node := by
          rw [child?, hholder, Option.bind_some]
          exact (Registry.mem_entries_iff hnodup).mp (List.mem_of_find?_eq_some hfound)
        rw [(h.child_inj _ _ _ _ _ hsome hother hchild).2]
    obtain ⟨fuel, rfl⟩ : ∃ less, fuel = less + 1 :=
      Nat.exists_eq_succ_of_ne_zero (Nat.ne_of_gt (Nat.zero_lt_of_lt hfuel))
    have hnames := ih habove hholder (Nat.lt_of_lt_of_le hlt (Nat.le_of_lt_succ hfuel))
    simp only [namesTo?, if_neg hroot, hdirectory, hparent, hholder, hentry, hnames, bind,
      Option.bind_some]

/-- Names that are found on the way up lead down again. -/
theorem WellFormed.descend_of_namesTo? (h : t.WellFormed) {fuel : Nat}
    (hnames : t.namesTo? fuel id = some names) :
    t.descend names = some id ∧ ∃ directory, t.directory? id = some directory := by
  induction fuel generalizing id names with
  | zero => cases hnames
  | succ fuel ih =>
    by_cases hroot : id = root
    · rw [namesTo?, if_pos hroot] at hnames
      obtain ⟨directory, hdirectory, _⟩ := h.root_stands
      cases hnames
      rw [hroot]
      exact ⟨rfl, directory, hdirectory⟩
    · rw [namesTo?, if_neg hroot] at hnames
      obtain ⟨directory, hdirectory, habove⟩ := Option.bind_eq_some_iff.mp hnames
      obtain ⟨holder, hholder, hentry⟩ := Option.bind_eq_some_iff.mp habove
      obtain ⟨⟨name, node⟩, hfound, hnamed⟩ := Option.bind_eq_some_iff.mp hentry
      obtain ⟨front, hfront, hlast⟩ := Option.bind_eq_some_iff.mp hnamed
      obtain rfl : node = id := by simpa using List.find?_some hfound
      obtain rfl : front ++ [name] = names := Option.some.inj hlast
      have hchild : t.child? directory.parent name = some node := by
        rw [child?, hholder, Option.bind_some]
        exact (Registry.mem_entries_iff (h.names_nodup directory.parent holder hholder)).mp
          (List.mem_of_find?_eq_some hfound)
      refine ⟨?_, directory, hdirectory⟩
      rw [descend_append_singleton, (ih hfront).1, Option.bind_some, hchild]

/-- A directory has a path exactly if names lead to it, and then the path along them. -/
theorem WellFormed.pathOf_eq_ok_iff (h : t.WellFormed) {text : String} :
    t.pathOf id = .ok text ↔
      ∃ names, t.descend names = some id ∧ t.at? names = some .directory ∧
        text = Path.rooted names := by
  constructor
  · intro hpath
    unfold pathOf at hpath
    cases hnames : t.namesTo? (id + 1) id with
    | none =>
      rw [hnames] at hpath
      cases hpath
    | some names =>
      rw [hnames] at hpath
      obtain ⟨hid, directory, hdirectory⟩ := h.descend_of_namesTo? hnames
      have hshown : t.at? names = some .directory :=
        at?_eq_directory_iff.mpr ⟨id, hid, by simp [hdirectory]⟩
      exact ⟨names, hid, hshown, (Except.ok.inj hpath).symm⟩
  · rintro ⟨names, hid, hshown, rfl⟩
    obtain ⟨found, directory, hfound, hdirectory⟩ := exists_directory_of_at? hshown
    obtain rfl : id = found := Option.some.inj (hid.symm.trans hfound)
    unfold pathOf
    rw [h.namesTo?_of_descend hid hdirectory (Nat.lt_succ_self id)]
    rfl

/-! ## Making directories with those above them -/

/-- What is shown when there are directories all along names. -/
def withDirectories (names : List String) (view : List String → Option Thing) :
    List String → Option Thing :=
  fun other => if other <+: names then some .directory else view other

/-- Directories along names are shown once, however often they are asked for. -/
theorem withDirectories_idem (names : List String) (view : List String → Option Thing) :
    withDirectories names (withDirectories names view) = withDirectories names view := by
  funext other
  unfold withDirectories
  split <;> rfl

/-- A change elsewhere can come before or after the directories. -/
theorem withDirectories_update {names other : List String} (h : ¬ other <+: names)
    (view : List String → Option Thing) (thing : Option Thing) :
    withDirectories names (Function.update view other thing) =
      Function.update (withDirectories names view) other thing := by
  funext place
  simp only [withDirectories, Function.update_apply]
  by_cases hplace : place = other
  · rw [hplace, if_neg h, if_pos rfl, if_pos rfl]
  · rw [if_neg hplace, if_neg hplace]

/-- There are directories all along names afterwards, and nothing else has changed. -/
structure Ensured (before after : Tree) (names : List String) : Prop where
  /-- The tree is well-formed. -/
  wellFormed : after.WellFormed
  /-- Directories are shown along the names. -/
  at?_eq : after.at? = withDirectories names before.at?
  /-- All that was there is kept. -/
  extended : before.Extends after

/-- Where a directory is shown there are directories all along. -/
theorem WellFormed.ensured_self (h : t.WellFormed) (hshown : t.at? names = some .directory) :
    t.Ensured t names where
  wellFormed := h
  at?_eq := by
    funext other
    unfold withDirectories
    split
    · exact at?_of_prefix_directory hshown ‹_›
    · rfl
  extended := .refl t

/-- One more directory below some that are there. -/
theorem WellFormed.ensured_addNode (h : t.WellFormed) {directory : Directory}
    (hid : t.descend names = some id) (hdirectory : t.directory? id = some directory)
    (hname : IsName name) (hmissing : t.child? id name = none) :
    t.Ensured (t.addNode id name (.directory { parent := id })) (names ++ [name]) where
  wellFormed := h.addNode hdirectory hname .directory
  at?_eq := by
    rw [h.at?_addNode hdirectory hid hmissing .directory]
    have hshown : t.at? names = some .directory := at?_eq_directory_iff.mpr ⟨id, hid, by
      simp [hdirectory]⟩
    funext other
    rw [Function.update_apply]
    unfold withDirectories
    by_cases hself : other = names ++ [name]
    · rw [if_pos hself, if_pos (by rw [hself])]
      rfl
    · rw [if_neg hself]
      split
      · rename_i hfront
        exact at?_of_prefix_directory hshown
          ((List.prefix_concat_iff.mp hfront).resolve_left hself)
      · rfl
  extended := extends_addNode hdirectory hmissing .directory

/-- Directories along the first names, and then along all of them. -/
theorem Ensured.trans {t' t'' : Tree} {front : List String} (hfirst : t.Ensured t' front)
    (hfront : front <+: names) (hsecond : t'.Ensured t'' names) : t.Ensured t'' names where
  wellFormed := hsecond.wellFormed
  at?_eq := by
    rw [hsecond.at?_eq, hfirst.at?_eq]
    funext other
    unfold withDirectories
    by_cases hbefore : other <+: names
    · rw [if_pos hbefore, if_pos hbefore]
    · rw [if_neg hbefore, if_neg hbefore, if_neg fun hshort => hbefore (hshort.trans hfront)]
  extended := hfirst.extended.trans hsecond.extended

/-- A directory is shown at the names afterwards. -/
theorem Ensured.at?_self {t' : Tree} (hensured : t.Ensured t' names) :
    t'.at? names = some .directory := by
  rw [hensured.at?_eq, withDirectories, if_pos List.prefix_rfl]

/-- What is no directory afterwards is what it was before. -/
theorem Ensured.at?_of_ne_directory {t' : Tree} (hensured : t.Ensured t' names)
    {other : List String} (hne : t'.at? other ≠ some .directory) : t.at? other = t'.at? other := by
  rw [hensured.at?_eq, withDirectories] at hne ⊢
  split
  · rename_i hfront
    exact absurd (if_pos hfront) hne
  · rfl

/-- Where there was nothing or a directory before, there is nothing or a directory afterwards. -/
theorem Ensured.none_or_directory {t' : Tree} (hensured : t.Ensured t' names)
    {other : List String} (h : t.at? other = none ∨ t.at? other = some .directory) :
    t'.at? other = none ∨ t'.at? other = some .directory := by
  rw [hensured.at?_eq]
  unfold withDirectories
  split
  · exact Or.inr rfl
  · exact h

/-- A directory that is there will do. -/
theorem WellFormed.settleFor_eq (h : t.WellFormed) (here : NodeId) {path : Path}
    (hanchor : path.anchor = .root) (hlength : path.toText.utf8ByteSize ≤ pathLimit)
    (hshown : t.at? path.parts = some .directory) (fault : Fault) :
    t.settleFor here path fault = .ok () := by
  rw [Path.toText_of_root hanchor] at hlength
  unfold settleFor
  rw [Path.toText_of_root hanchor, h.leadsToDirectory_rooted here hlength hshown]

/-- Unless the path above is missing, the first try is the only one. -/
theorem ensureWithin_eq_ensureLast {here : NodeId} {path : Path}
    (hfound : t.makeDirectory here path.toText ≠ .error .noEntry) (depth : Nat) :
    t.ensureWithin here depth path = t.ensureLast here path := by
  cases depth with
  | zero => rfl
  | succ depth =>
    unfold ensureWithin ensureLast
    cases hmade : t.makeDirectory here path.toText with
    | ok t' => rfl
    | error fault =>
      cases fault with
      | noEntry => exact absurd hmade hfound
      | _ => rfl

section EnsureAlong

variable (here : NodeId) {path : Path} (hanchor : path.anchor = .root)
  (hlength : path.toText.utf8ByteSize ≤ pathLimit)

include hanchor hlength

/-- A directory that is there is left alone. -/
theorem WellFormed.ensureLast_of_directory (h : t.WellFormed)
    (hshown : t.at? path.parts = some .directory) :
    t.makeDirectory here path.toText ≠ .error .noEntry ∧
      t.ensureLast here path = (t, .ok ()) := by
  have hsettled := h.settleFor_eq here hanchor hlength hshown .exists
  rw [Path.toText_of_root hanchor] at hlength
  have hmade := makeDirectory_of_directory here h hlength hshown
  rw [← Path.toText_of_root hanchor] at hmade
  constructor
  · rw [hmade]
    simp
  · unfold ensureLast
    rw [hmade]
    simp only [hsettled]

variable (hnames : ∀ part ∈ path.parts, IsName part)

include hnames

/-- Below a directory that is there one is made, unless it is there too. -/
theorem WellFormed.ensureLast_ok (h : t.WellFormed)
    (habove : t.at? path.parent.parts = some .directory)
    (hself : t.at? path.parts = none ∨ t.at? path.parts = some .directory) :
    t.makeDirectory here path.toText ≠ .error .noEntry ∧
      ∃ t', t.ensureLast here path = (t', .ok ()) ∧ t.Ensured t' path.parts := by
  rcases hself with hnone | hshown
  · have htext := Path.toText_of_root hanchor
    rw [htext] at hlength ⊢
    unfold ensureLast
    rw [htext]
    obtain ⟨id, directory, hid, hdirectory⟩ := exists_directory_of_at? habove
    simp only [Path.parent] at hid
    cases hparts : path.parts using List.reverseRecOn with
    | nil =>
      rw [hparts, h.at?_nil] at hnone
      cases hnone
    | append_singleton names name =>
      rw [hparts] at hnone hid hlength hnames
      rw [List.dropLast_concat] at hid
      have hmissing : t.child? id name = none := h.child?_eq_none hid hnone
      have hname : IsName name := hnames name (by simp)
      rw [makeDirectory_of_vacant here h hnames hlength hid hdirectory hmissing]
      exact ⟨by simp, _, rfl, h.ensured_addNode hid hdirectory hname hmissing⟩
  · obtain ⟨hfound, hensured⟩ := h.ensureLast_of_directory here hanchor hlength hshown
    exact ⟨hfound, t, hensured, h.ensured_self hshown⟩

end EnsureAlong

/-- Where nothing else than directories is in the way, those that are missing are made, from the
first to the last. -/
theorem WellFormed.ensureWithin_ok (h : t.WellFormed) (here : NodeId) {path : Path} {depth : Nat}
    (hanchor : path.anchor = .root) (hlength : path.toText.utf8ByteSize ≤ pathLimit)
    (hnames : ∀ part ∈ path.parts, IsName part) (hfree : t.Free path.parts)
    (hdepth : path.parts.length ≤ depth) :
    ∃ t', t.ensureWithin here depth path = (t', .ok ()) ∧ t.Ensured t' path.parts := by
  -- The induction goes up the path; what is made above leaves the last directory to be made.
  induction depth generalizing path with
  | zero =>
    have hparts : path.parts = [] := List.length_eq_zero_iff.mp (Nat.le_zero.mp hdepth)
    have hshown : t.at? path.parts = some .directory := by
      rw [hparts]
      exact h.at?_nil
    exact ⟨t, (h.ensureLast_of_directory here hanchor hlength hshown).2, h.ensured_self hshown⟩
  | succ depth ih =>
    have hfront : path.parent.parts <+: path.parts := List.dropLast_prefix path.parts
    have hself := hfree path.parts List.prefix_rfl
    rcases hfree path.parent.parts hfront with hmissing | habove
    · have hshorter : path.parent.toText.utf8ByteSize ≤ pathLimit := by
        have htext : path.parent.toText = Path.rooted path.parent.parts :=
          Path.toText_of_root hanchor
        rw [Path.toText_of_root hanchor] at hlength
        rw [htext]
        exact Nat.le_trans (Path.utf8ByteSize_rooted_le hfront) hlength
      obtain ⟨t', hmade, hensured⟩ := @ih path.parent hanchor hshorter
        (fun part hpart => hnames part (hfront.subset hpart))
        (fun front hshort => hfree front (hshort.trans hfront)) (by
          have hlen : path.parent.parts.length = path.parts.length - 1 := List.length_dropLast
          omega)
      have hstart : t.makeDirectory here path.toText = .error .noEntry := by
        rw [Path.toText_of_root hanchor] at hlength ⊢
        simp only [Path.parent] at hmissing hfront
        cases hparts : path.parts using List.reverseRecOn with
        | nil =>
          rw [hparts, List.dropLast_nil, h.at?_nil] at hmissing
          cases hmissing
        | append_singleton names name =>
          rw [hparts] at hmissing hlength hnames hfront
          rw [List.dropLast_concat] at hmissing hfront
          rw [hparts] at hfree
          exact makeDirectory_of_missing here h hnames hlength
            (fun front hshort => hfree front (hshort.trans hfront)) hmissing
      obtain ⟨_, t'', hlast, hensured'⟩ := hensured.wellFormed.ensureLast_ok here hanchor hlength
        hnames (hensured.at?_self) (hensured.none_or_directory hself)
      refine ⟨t'', ?_, hensured.trans hfront hensured'⟩
      unfold ensureWithin
      rw [hstart]
      simp only [hmade, hlast]
    · obtain ⟨hfound, hensured⟩ := h.ensureLast_ok here hanchor hlength hnames habove hself
      rwa [ensureWithin_eq_ensureLast hfound]

/-- **Directories along names.** Where nothing else than directories is in the way, there are
directories all along afterwards, and nothing else has changed. -/
theorem WellFormed.ensure_ok (h : t.WellFormed) (here : NodeId) {path : Path}
    (hanchor : path.anchor = .root) (hlength : path.toText.utf8ByteSize ≤ pathLimit)
    (hnames : ∀ part ∈ path.parts, IsName part) (hfree : t.Free path.parts) :
    ∃ t', t.ensure here path = (t', .ok ()) ∧ t.Ensured t' path.parts :=
  h.ensureWithin_ok here hanchor hlength hnames hfree (Nat.le_refl _)

end Tree

end Fixtures
