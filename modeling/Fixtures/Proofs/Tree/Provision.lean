import Fixtures.Proofs.Tree.Growth

/-!
# Directories behind links

Directories that are asked for below a directory are there afterwards, or nothing has changed at
all. On the way to them links are followed, so each of them has the place that the links lead to. It
was there before, or its place was vacant; and nothing else is different.
-/

namespace Fixtures.Tree

variable {t t' : Tree} {here id place : NodeId} {base rest names : List String} {name : String}

/-! ## Making one directory -/

section MakeDirectory

variable (here : NodeId) (hnames : ∀ other ∈ names ++ [name], IsName other)
  (hlength : (Path.rooted (names ++ [name])).utf8ByteSize ≤ pathLimit)

include hnames hlength

/-- **Making a directory behind links.** A directory is made exactly where the names before the last
lead to a directory that does not have the last. -/
theorem Sound.makeDirectory_rooted_iff (h : t.Sound) :
    t.makeDirectory here (Path.rooted (names ++ [name])) = .ok t' ↔
      ∃ place, t.Course linkLimit root (names.map Step.name) (.node place) ∧
        t.Vacant place name ∧ t' = t.addNode place name (.directory { parent := place }) := by
  have hname : IsName name := hnames name (by simp)
  unfold makeDirectory makeNode
  rw [lastStep?_rooted here hnames hlength]
  constructor
  · intro hmade
    obtain ⟨last, hlast, hmade⟩ := exists_ok_of_bind hmade
    split at hlast
    · cases hlast
    · cases hlast
    · rename_i above hwalk
      split at hlast
      · cases hlast
      · rename_i directory hdirectory
        cases hlast
        obtain ⟨arrival, henter, hmade⟩ := exists_ok_of_bind hmade
        have hplain : (Step.name name).IsPlain := ⟨hname.isPart, hname.ne_up, hname.nul_not_mem⟩
        split at hmade
        · cases hmade
        · rename_i place missing
          have hvacant := vacant_of_enter hdirectory hplain henter
          obtain ⟨rfl, hmissing⟩ := step_of_enter henter
          obtain rfl : name = missing := Step.name.inj hmissing
          cases hmade
          exact ⟨_, walk_eq_ok_iff.mp hwalk, hvacant, rfl⟩
  · rintro ⟨place, hcourse, hvacant, rfl⟩
    obtain ⟨directory, hdirectory⟩ := hvacant.exists_directory
    obtain ⟨front, hfront⟩ : t.Placed place := h.placed_of_course hcourse t.placed_root
    have henter := h.enter_of_missing hfront hdirectory hname hvacant.child?_eq
    simp only [hcourse.walk_eq, hdirectory, bind, Except.bind, henter]

end MakeDirectory

/-- A path that is too long is refused before a directory is made. -/
theorem makeDirectory_of_long {text : String} (hne : text ≠ "")
    (hlong : pathLimit < text.utf8ByteSize) :
    t.makeDirectory here text = .error .nameTooLong := by
  have hsteps : steps text = .error .nameTooLong := by simp [steps, hne, hlong]
  unfold makeDirectory makeNode lastStep?
  rw [hsteps]
  rfl

/-- A path that is too long leads to no directory. -/
theorem settleFor_of_long {path : Path} (hnul : '\x00' ∉ path.toText.toList)
    (hlong : pathLimit < path.toText.utf8ByteSize) (fault : Fault) :
    t.settleFor here path fault = .error (.nameTooLong, path) := by
  have hsteps : steps path.toText = .error .nameTooLong := by
    simp [steps, path.toText_ne_empty, hlong]
  have hlookUp : t.lookUp here path.toText = .error .nameTooLong := by
    unfold lookUp
    rw [hsteps]
    rfl
  unfold settleFor leadsToDirectory
  rw [if_neg (by simpa using hnul), hlookUp]

/-! ## Below a new directory -/

/-- Names that lead to a directory which does not have one more find its place vacant. -/
theorem Sound.course_vacant (h : t.Sound) {links : Nat}
    (hcourse : t.Course links root (names.map Step.name) (.node place))
    (hvacant : t.Vacant place name) :
    t.Course links root ((names ++ [name]).map Step.name) (.vacant place name) := by
  obtain ⟨directory, hdirectory⟩ := hvacant.exists_directory
  obtain ⟨front, hfront⟩ : t.Placed place := h.placed_of_course hcourse t.placed_root
  have henter := h.enter_of_missing hfront hdirectory hvacant.isName hvacant.child?_eq
  have hlast : t.Course 0 place [.name name] (.vacant place name) := .vacant hdirectory henter
  rw [List.map_append]
  exact hcourse.append hlast

/-- What is made in a directory is found behind the names that led to the directory. -/
theorem Sound.course_addNode (h : t.Sound) {links : Nat} (node : Node)
    (hcourse : t.Course links root (names.map Step.name) (.node place))
    (hvacant : t.Vacant place name) (hnode : node.target? = none) :
    (t.addNode place name node).Course links root ((names ++ [name]).map Step.name)
      (.node t.size) := by
  obtain ⟨directory, hdirectory⟩ := hvacant.exists_directory
  have hgrown := (h.course_vacant hcourse hvacant).addNode node hdirectory hvacant.child?_eq hnode
  rwa [Arrival.grown, if_pos rfl] at hgrown

/-- In a new directory every name is vacant. -/
theorem Vacant.vacant_new (h : t.Vacant place name) {other : String} (hother : IsName other) :
    (t.addNode place name (.directory { parent := place })).Vacant t.size other := by
  obtain ⟨directory, hdirectory⟩ := h.exists_directory
  have hne : t.size ≠ place := Nat.ne_of_gt (lt_size_of_node? (node?_of_directory? hdirectory))
  refine ⟨⟨{ parent := place }, ?_⟩, ?_, hother⟩
  · rw [directory?_addNode hdirectory, if_neg hne, if_pos rfl]
    rfl
  · rw [child?_addNode hdirectory .directory, if_neg fun both => hne both.1, child?,
      directory?_eq_bind, node?_of_size_le t (Nat.le_refl _)]
    rfl

/-! ## Directories one in the other -/

/-- The directories one in the other below a path, from the first to the last. -/
def levels (base : List String) : List String → List (List String)
  | [] => []
  | name :: rest => (base ++ [name]) :: levels (base ++ [name]) rest

/-- One more name leads to one more directory. -/
theorem levels_concat (base rest : List String) (name : String) :
    levels base (rest ++ [name]) = levels base rest ++ [base ++ rest ++ [name]] := by
  induction rest generalizing base with
  | nil => simp [levels]
  | cons first rest ih => simp [levels, ih]

/-- How directories one in the other come about behind a directory: the deepest that are asked for
are made, each in the one before, and above them there is one already. -/
inductive Provides (t : Tree) (base : List String) : List String → Tree → Prop where
  /-- The directory is there. -/
  | found {rest : List String} {id : NodeId}
      (hcourse : t.Course linkLimit root ((base ++ rest).map Step.name) (.node id))
      (hdirectory : (t.directory? id).isSome) : Provides t base rest t
  /-- The directory is made in the one before. -/
  | made {rest : List String} {name : String} {place : NodeId} {t' : Tree}
      (habove : Provides t base rest t')
      (hcourse : t'.Course linkLimit root ((base ++ rest).map Step.name) (.node place))
      (hvacant : t'.Vacant place name) :
      Provides t base (rest ++ [name]) (t'.addNode place name (.directory { parent := place }))

/-- A tree stays sound when directories are provided. -/
theorem Sound.provides (h : t.Sound) (hprovides : t.Provides base rest t') : t'.Sound := by
  induction hprovides with
  | found => exact h
  | made _ _ hvacant ih =>
    obtain ⟨directory, hdirectory⟩ := hvacant.exists_directory
    exact ih.addNode hdirectory hvacant.isName .directory

section Ensure

variable (here : NodeId) {path : Path} (hanchor : path.anchor = .root)
  (hlength : path.toText.utf8ByteSize ≤ pathLimit)

include hanchor hlength

/-- One directory: it is made, or is there, or is refused, and then the tree is as it was. -/
theorem Sound.ensureLast_cases (h : t.Sound) (hnames : ∀ other ∈ names ++ [name], IsName other)
    (hparts : path.parts = names ++ [name]) :
    (∃ place, t.Course linkLimit root (names.map Step.name) (.node place) ∧ t.Vacant place name ∧
      t.ensureLast here path =
        (t.addNode place name (.directory { parent := place }), .ok ())) ∨
    (∃ id, t.Course linkLimit root ((names ++ [name]).map Step.name) (.node id) ∧
      (t.directory? id).isSome ∧ t.ensureLast here path = (t, .ok ())) ∨
    ∃ failure, t.ensureLast here path = (t, .error failure) := by
  have htext : path.toText = Path.rooted (names ++ [name]) := by
    rw [Path.toText_of_root hanchor, hparts]
  have hnul : '\x00' ∉ path.toText.toList := htext ▸ nul_not_mem_rooted hnames
  rw [htext] at hlength
  unfold ensureLast
  split
  · rename_i made hmade
    rw [htext, h.makeDirectory_rooted_iff here hnames hlength] at hmade
    obtain ⟨place, hcourse, hvacant, rfl⟩ := hmade
    exact Or.inl ⟨place, hcourse, hvacant, rfl⟩
  · exact Or.inr (Or.inr ⟨_, rfl⟩)
  · rename_i fault _ _
    right
    unfold settleFor
    cases hleads : t.leadsToDirectory here path.toText with
    | error other => exact Or.inr ⟨_, rfl⟩
    | ok found =>
      cases found with
      | false => exact Or.inr ⟨_, rfl⟩
      | true =>
        obtain ⟨id, hlookUp, hsome⟩ := (leadsToDirectory_eq_true_iff hnul).mp hleads
        rw [htext, lookUp_rooted_eq_ok_iff hnames hlength] at hlookUp
        exact Or.inl ⟨id, hlookUp, hsome, rfl⟩

/-- Below a directory that has just been made the next one is made. -/
theorem Sound.ensureLast_new (h : t.Sound) {last : String}
    (hnames : ∀ other ∈ names ++ [last] ++ [name], IsName other)
    (hparts : path.parts = names ++ [last] ++ [name])
    (hcourse : t.Course linkLimit root (names.map Step.name) (.node place))
    (hvacant : t.Vacant place last) :
    let new := t.addNode place last (.directory { parent := place })
    new.Course linkLimit root ((names ++ [last]).map Step.name) (.node t.size) ∧
      new.Vacant t.size name ∧ new.ensureLast here path =
        (new.addNode t.size name (.directory { parent := t.size }), .ok ()) := by
  obtain ⟨directory, hdirectory⟩ := hvacant.exists_directory
  have hsound := h.addNode hdirectory hvacant.isName .directory
  have hfound := h.course_addNode (.directory { parent := place }) hcourse hvacant rfl
  have hempty := hvacant.vacant_new (hnames name (by simp))
  have htext : path.toText = Path.rooted (names ++ [last] ++ [name]) := by
    rw [Path.toText_of_root hanchor, hparts]
  have hmade := (hsound.makeDirectory_rooted_iff here hnames (htext ▸ hlength)).mpr
    ⟨_, hfound, hempty, rfl⟩
  refine ⟨hfound, hempty, ?_⟩
  unfold ensureLast
  rw [htext, hmade]

variable (hbase : t.at? base = some .directory) (hnames : ∀ name ∈ base ++ rest, IsName name)
  (hparts : path.parts = base ++ rest)

include hbase hnames hparts

/-- Directories are provided, or the tree is as it was, if the depth reaches a directory. -/
theorem Sound.ensureWithin_cases (h : t.Sound) {depth : Nat} (hdepth : rest.length ≤ depth) :
    (∃ t', t.ensureWithin here depth path = (t', .ok ()) ∧ t.Provides base rest t') ∨
      ∃ failure, t.ensureWithin here depth path = (t, .error failure) := by
  -- The induction goes up the path, to the directory that is there.
  induction rest using List.reverseRecOn generalizing path depth with
  | nil =>
    rw [List.append_nil] at hparts hnames
    have htext : path.toText = Path.rooted base := by rw [Path.toText_of_root hanchor, hparts]
    obtain ⟨hfound, hensured⟩ := h.ensureLast_of_directory here hanchor hlength (hparts ▸ hbase)
    obtain ⟨id, directory, hid, hdirectory⟩ := exists_directory_of_at? hbase
    have hlookUp := h.lookUp_rooted here (htext ▸ hlength) hid (target?_of_directory? hdirectory)
    have hcourse := (lookUp_rooted_eq_ok_iff hnames (htext ▸ hlength) _).mp hlookUp
    left
    rw [ensureWithin_eq_ensureLast hfound, hensured]
    exact ⟨t, rfl, .found (by rwa [List.append_nil]) (by simp [hdirectory])⟩
  | append_singleton rest name ih =>
    obtain ⟨depth, rfl⟩ : ∃ less, depth = less + 1 := by
      rw [List.length_append, List.length_singleton] at hdepth
      exact Nat.exists_eq_succ_of_ne_zero (by omega)
    have hshallower : rest.length ≤ depth := by
      rw [List.length_append, List.length_singleton] at hdepth
      omega
    rw [← List.append_assoc] at hnames hparts
    by_cases hstart : t.makeDirectory here path.toText = .error .noEntry
    · have habove : path.parent.parts = base ++ rest := by
        simp only [Path.parent, hparts, List.dropLast_concat]
      have hfront : base ++ rest <+: path.parts := hparts ▸ List.prefix_append _ _
      have hrooted : path.parent.anchor = .root := hanchor
      have hshorter : path.parent.toText.utf8ByteSize ≤ pathLimit := by
        rw [Path.toText_of_root hanchor] at hlength
        rw [Path.toText_of_root hrooted, habove]
        exact Nat.le_trans (Path.utf8ByteSize_rooted_le hfront) hlength
      have hfirst := ih hrooted hshorter
        (fun other hother => hnames other (List.mem_append_left _ hother)) habove hshallower
      rcases hfirst with ⟨t', hmade, hprovides⟩ | ⟨failure, hrefused⟩
      · have hsecond : t.ensureWithin here (depth + 1) path = t'.ensureLast here path := by
          unfold ensureWithin
          rw [hstart]
          simp only [hmade]
        rw [hsecond]
        cases hprovides with
        | found _ _ =>
          -- Nothing was made above, so the second try fails as the first one did.
          right
          unfold ensureLast
          rw [hstart]
          exact ⟨_, rfl⟩
        | @made rest last place t' habove' hcourse hvacant =>
          -- The directory above is new, so nothing is in it yet.
          left
          rw [← List.append_assoc] at hnames hparts
          obtain ⟨hfound, hempty, hensured⟩ := (h.provides habove').ensureLast_new here hanchor
            hlength hnames hparts hcourse hvacant
          rw [hensured]
          rw [List.append_assoc] at hfound
          exact ⟨_, rfl, .made (.made habove' hcourse hvacant) hfound hempty⟩
      · right
        unfold ensureWithin
        rw [hstart]
        simp only [hrefused]
        exact ⟨_, rfl⟩
    · rw [ensureWithin_eq_ensureLast hstart]
      rcases h.ensureLast_cases here hanchor hlength hnames hparts with
        ⟨place, hcourse, hvacant, hmade⟩ | ⟨id, hcourse, hsome, hfound⟩ | hrefused
      · obtain ⟨directory, hdirectory⟩ := hvacant.exists_directory
        exact Or.inl ⟨_, hmade, .made (.found hcourse (by simp [hdirectory])) hcourse hvacant⟩
      · refine Or.inl ⟨t, hfound, .found ?_ hsome⟩
        rwa [← List.append_assoc]
      · exact Or.inr hrefused

end Ensure

/-- **All or nothing.** Directories are provided below a directory, or the tree is as it was. -/
theorem Sound.ensure_cases (h : t.Sound) (here : NodeId) {path : Path}
    (hanchor : path.anchor = .root) (hbase : t.at? base = some .directory)
    (hnames : ∀ name ∈ base ++ rest, IsName name) (hparts : path.parts = base ++ rest) :
    (∃ t', t.ensure here path = (t', .ok ()) ∧ t.Provides base rest t' ∧
      path.toText.utf8ByteSize ≤ pathLimit) ∨
    ∃ failure, t.ensure here path = (t, .error failure) := by
  rcases Nat.lt_or_ge pathLimit path.toText.utf8ByteSize with hlong | hlength
  · have hmade : t.makeDirectory here path.toText = .error .nameTooLong :=
      makeDirectory_of_long path.toText_ne_empty hlong
    have hnul : '\x00' ∉ path.toText.toList :=
      path.nul_not_mem_toText fun part hpart => (hnames part (hparts ▸ hpart)).nul_not_mem
    right
    unfold ensure
    rw [ensureWithin_eq_ensureLast (by simp [hmade])]
    unfold ensureLast
    rw [hmade]
    exact ⟨_, congrArg _ (settleFor_of_long hnul hlong _)⟩
  · have hdepth : rest.length ≤ path.parts.length := by
      rw [hparts, List.length_append]
      exact Nat.le_add_left _ _
    rcases h.ensureWithin_cases here hanchor hlength hbase hnames hparts hdepth with
      ⟨t', hmade, hprovides⟩ | hrefused
    · exact Or.inl ⟨t', hmade, hprovides, hlength⟩
    · exact Or.inr hrefused

/-! ## What has been provided -/

/-- A directory that was asked for along names, with the place that they lead to. The directory was
there before, or there was nothing. -/
structure Provided (before after : Tree) (here : NodeId) (names place : List String)
    (id : NodeId) : Prop where
  /-- The names lead to the directory, links followed. -/
  lookUp_eq : after.lookUp here (Path.rooted names) = .ok id
  /-- The directory has the place. -/
  descend_eq : after.descend place = some id
  /-- It is a directory. -/
  shown : after.at? place = some .directory
  /-- It was the same directory before, or the names led nowhere and the place was vacant. -/
  before_cases :
    (before.lookUp here (Path.rooted names) = .ok id ∧ before.descend place = some id ∧
      before.at? place = some .directory) ∨
    (before.lookUp here (Path.rooted names) = .error .noEntry ∧ before.at? place = none)

/-- What is shown when there are directories at some places. -/
def withPlaces (places : List (List String)) (view : List String → Option Thing) :
    List String → Option Thing :=
  fun names => if names ∈ places then some .directory else view names

/-- There are directories along all of some lists of names, each at its place. Those that were
missing have been made, and nothing else has changed. -/
structure Furnished (before after : Tree) (here : NodeId) (levels places : List (List String)) :
    Prop where
  /-- The tree is sound. -/
  sound : after.Sound
  /-- The directories are there. -/
  provided : List.Forall₂ (fun names place => ∃ id, Provided before after here names place id)
    levels places
  /-- Nothing else is shown than before. -/
  at?_eq : after.at? = withPlaces places before.at?
  /-- All that was there is kept. -/
  extended : before.Extends after
  /-- No file has been made or has changed, also of those that have no place. -/
  content?_eq : ∀ id, after.content? id = before.content? id
  /-- No link has been made or has changed, also of those that have no place. -/
  target?_eq : ∀ id, after.target? id = before.target? id

/-- Where directories are shown already nothing changes. -/
theorem withPlaces_self {places : List (List String)} {view : List String → Option Thing}
    (h : ∀ place ∈ places, view place = some .directory) : withPlaces places view = view := by
  funext names
  unfold withPlaces
  split
  · exact (h names ‹_›).symm
  · rfl

/-- One more place. -/
theorem withPlaces_concat (places : List (List String)) (place : List String)
    (view : List String → Option Thing) :
    withPlaces (places ++ [place]) view =
      Function.update (withPlaces places view) place (some .directory) := by
  funext names
  rw [Function.update_apply]
  unfold withPlaces
  by_cases hself : names = place
  · rw [if_pos hself, if_pos (by simp [hself])]
  · simp only [List.mem_append, List.mem_singleton, hself, or_false, if_false]

/-- What is no directory afterwards is what it was before. -/
theorem Furnished.at?_of_ne_directory {levels places : List (List String)}
    (h : t.Furnished t' here levels places) (hne : t'.at? names ≠ some .directory) :
    t.at? names = t'.at? names := by
  rw [h.at?_eq, withPlaces] at hne ⊢
  split
  · rename_i hmem
    exact absurd (if_pos hmem) hne
  · rfl

/-- What is no directory has the places that it had. -/
theorem Furnished.descend_eq_some_iff {levels places : List (List String)}
    (h : t.Furnished t' here levels places) (hnode : t'.directory? id = none) :
    t'.descend names = some id ↔ t.descend names = some id :=
  h.sound.descend_eq_some_iff_of_extends h.extended (fun _ => h.at?_of_ne_directory) hnode

/-- All directories along the levels are shown. -/
theorem shown_of_provided {levels places : List (List String)}
    (h : List.Forall₂ (fun names place => ∃ id, Provided t t' here names place id) levels places) :
    ∀ place ∈ places, t'.at? place = some .directory := by
  induction h with
  | nil => simp
  | cons hfirst _ ih =>
    obtain ⟨id, hfirst⟩ := hfirst
    exact List.forall_mem_cons.mpr ⟨hfirst.shown, ih⟩

/-- A directory that names lead to has its place. -/
theorem Sound.provided_self (h : t.Sound)
    (hlookUp : t.lookUp here (Path.rooted names) = .ok id) (hdirectory : (t.directory? id).isSome) :
    ∃ place, Provided t t here names place id := by
  obtain ⟨steps, _, hcourse⟩ := lookUp_eq_ok_iff_course.mp hlookUp
  rw [origin_rooted] at hcourse
  obtain ⟨place, hplace⟩ : t.Placed id := h.placed_of_course hcourse t.placed_root
  have hshown : t.at? place = some .directory :=
    at?_eq_directory_iff.mpr ⟨id, hplace, hdirectory⟩
  exact ⟨place, hlookUp, hplace, hshown, Or.inl ⟨hlookUp, hplace, hshown⟩⟩

/-- A directory that has been provided stays so when another one is made. -/
theorem Provided.addNode {place : List String} {above : NodeId} {last : String}
    (h : Provided t t' here names place id) (hvacant : t'.Vacant above last) :
    Provided t (t'.addNode above last (.directory { parent := above })) here names place id := by
  obtain ⟨directory, hdirectory⟩ := hvacant.exists_directory
  have hlookUp := lookUp_of_courses (fun _ _ _ _ hcourse =>
    hcourse.addNode (.directory { parent := above }) hdirectory hvacant.child?_eq rfl) h.lookUp_eq
  have hextended : t'.Extends (t'.addNode above last (.directory { parent := above })) :=
    extends_addNode hdirectory hvacant.child?_eq .directory
  exact ⟨hlookUp, hextended.descend_of h.descend_eq, hextended.at?_of_directory h.shown,
    h.before_cases⟩

/-- Below a directory that was there or was missing, names that lead to a vacant place led nowhere.
-/
theorem Provided.lookUp_below {place : List String} (h : Provided t t' here names place id)
    (hsound : t.Sound) (hnames : ∀ other ∈ names ++ [name], IsName other)
    (hlength : (Path.rooted (names ++ [name])).utf8ByteSize ≤ pathLimit)
    (hnone : t.at? (place ++ [name]) = none) :
    t.lookUp here (Path.rooted (names ++ [name])) = .error .noEntry := by
  have hfront : ∀ other ∈ names, IsName other := fun other hother =>
    hnames other (List.mem_append_left _ hother)
  have hshorter : (Path.rooted names).utf8ByteSize ≤ pathLimit :=
    Nat.le_trans (Path.utf8ByteSize_rooted_le (List.prefix_append _ _)) hlength
  rw [lookUp_rooted_eq hnames hlength]
  rcases h.before_cases with ⟨hlookUp, hplace, hshown⟩ | ⟨hlookUp, _⟩
  · obtain ⟨found, directory, hfound, hdirectory⟩ := exists_directory_of_at? hshown
    obtain rfl : id = found := Option.some.inj (hplace.symm.trans hfound)
    have hvacant : t.Vacant id name :=
      ⟨⟨directory, hdirectory⟩, hsound.child?_eq_none hplace hnone, hnames name (by simp)⟩
    have hcourse := (lookUp_rooted_eq_ok_iff hfront hshorter _).mp hlookUp
    rw [(hsound.course_vacant hcourse hvacant).walk_eq]
    rfl
  · rw [lookUp_rooted_eq hfront hshorter] at hlookUp
    rw [List.map_append, walk_append_of_settle (by simp) hlookUp]
    rfl

/-- A directory that is made below one that has been provided is provided, if it was missing before.
-/
theorem Provided.below {place : List String} (h : Provided t t' here names place id)
    (hbefore : t.Sound) (hsound : t'.Sound) (hnames : ∀ other ∈ names ++ [name], IsName other)
    (hlength : (Path.rooted (names ++ [name])).utf8ByteSize ≤ pathLimit)
    (hvacant : t'.Vacant id name) (hnone : t.at? (place ++ [name]) = none) :
    Provided t (t'.addNode id name (.directory { parent := id })) here (names ++ [name])
      (place ++ [name]) t'.size := by
  obtain ⟨directory, hdirectory⟩ := hvacant.exists_directory
  have hcourse : t'.Course linkLimit root (names.map Step.name) (.node id) :=
    (lookUp_rooted_eq_ok_iff (fun other hother => hnames other (List.mem_append_left _ hother))
      (Nat.le_trans (Path.utf8ByteSize_rooted_le (List.prefix_append _ _)) hlength) here).mp
      h.lookUp_eq
  exact {
    lookUp_eq := (lookUp_rooted_eq_ok_iff hnames hlength here).mpr
      (hsound.course_addNode _ hcourse hvacant rfl)
    descend_eq := by
      rw [hsound.descend_addNode hdirectory h.descend_eq hvacant.child?_eq .directory, if_pos rfl]
    shown := by
      rw [hsound.at?_addNode hdirectory h.descend_eq hvacant.child?_eq .directory,
        Function.update_self]
      rfl
    before_cases := Or.inr ⟨h.lookUp_below hbefore hnames hlength hnone, hnone⟩ }

/-- One more directory is provided. -/
theorem Furnished.addNode {levels places : List (List String)} {place : List String}
    {above : NodeId} (h : t.Furnished t' here levels places)
    (habove : t'.descend place = some above) (hvacant : t'.Vacant above name)
    (hnew : Provided t (t'.addNode above name (.directory { parent := above })) here names
      (place ++ [name]) t'.size) :
    t.Furnished (t'.addNode above name (.directory { parent := above })) here (levels ++ [names])
      (places ++ [place ++ [name]]) := by
  obtain ⟨directory, hdirectory⟩ := hvacant.exists_directory
  have hkept : List.Forall₂ (fun names place => ∃ node,
      Provided t (t'.addNode above name (.directory { parent := above })) here names place node)
      levels places := by
    refine h.provided.imp ?_
    rintro names other ⟨node, hprovided⟩
    exact ⟨node, hprovided.addNode hvacant⟩
  exact {
    sound := h.sound.addNode hdirectory hvacant.isName .directory
    provided := List.rel_append hkept (.cons ⟨_, hnew⟩ .nil)
    at?_eq := by
      rw [h.sound.at?_addNode hdirectory habove hvacant.child?_eq .directory, h.at?_eq,
        withPlaces_concat]
      rfl
    extended := h.extended.trans (extends_addNode hdirectory hvacant.child?_eq .directory)
    content?_eq := fun other => by
      rw [content?_addNode_of_not_file hdirectory rfl, h.content?_eq]
    target?_eq := fun other => by
      rw [target?_addNode_of_not_link hdirectory rfl, h.target?_eq] }

section Furnish

variable (here : NodeId) (hnames : ∀ name ∈ base ++ rest, IsName name)
  (hlength : (Path.rooted (base ++ rest)).utf8ByteSize ≤ pathLimit)

include hnames hlength

/-- Where names lead to a directory there are directories all along them already. -/
theorem Sound.furnished_self (h : t.Sound)
    (hcourse : t.Course linkLimit root ((base ++ rest).map Step.name) (.node id))
    (hdirectory : (t.directory? id).isSome) :
    ∃ places, t.Furnished t here (levels base rest) places := by
  have hprovided : ∃ places, List.Forall₂
      (fun names place => ∃ id, Provided t t here names place id) (levels base rest) places := by
    induction rest using List.reverseRecOn generalizing id with
    | nil => exact ⟨[], .nil⟩
    | append_singleton rest name ih =>
      rw [← List.append_assoc] at hnames hlength hcourse
      have hlookUp := (lookUp_rooted_eq_ok_iff hnames hlength here).mpr hcourse
      obtain ⟨place, hlast⟩ := h.provided_self hlookUp hdirectory
      rw [List.map_append] at hcourse
      obtain ⟨above, hfront, hstep⟩ := hcourse.split (by simp)
      have habove : (t.directory? above).isSome := by
        cases hstep with
        | pass hhere _ _ _ => simp [hhere]
        | link hhere _ _ _ => simp [hhere]
      obtain ⟨places, hplaces⟩ :=
        ih (fun other hother => hnames other (List.mem_append_left _ hother))
        (Nat.le_trans (Path.utf8ByteSize_rooted_le (List.prefix_append _ _)) hlength) hfront habove
      rw [levels_concat]
      exact ⟨places ++ [place], List.rel_append hplaces (.cons ⟨id, hlast⟩ .nil)⟩
  obtain ⟨places, hplaces⟩ := hprovided
  exact ⟨places, {
    sound := h
    provided := hplaces
    at?_eq := (withPlaces_self (shown_of_provided hplaces)).symm
    extended := .refl t
    content?_eq := fun _ => rfl
    target?_eq := fun _ => rfl }⟩

/-- **What is provided.** Every directory that was asked for is there, those that were missing have
been made, and nothing else has changed. -/
theorem Provides.furnished (hprovides : t.Provides base rest t') (h : t.Sound) :
    (∃ places, t.Furnished t' here (levels base rest) places) ∧
      ∃ place id, Provided t t' here (base ++ rest) place id := by
  induction hprovides with
  | found hcourse hdirectory =>
    have hlookUp := (lookUp_rooted_eq_ok_iff hnames hlength here).mpr hcourse
    obtain ⟨place, hplace⟩ := h.provided_self hlookUp hdirectory
    exact ⟨h.furnished_self here hnames hlength hcourse hdirectory, place, _, hplace⟩
  | @made rest name above t' hprovides hcourse hvacant ih =>
    rw [← List.append_assoc] at hnames hlength
    have hfront : ∀ other ∈ base ++ rest, IsName other := fun other hother =>
      hnames other (List.mem_append_left _ hother)
    have hshorter : (Path.rooted (base ++ rest)).utf8ByteSize ≤ pathLimit :=
      Nat.le_trans (Path.utf8ByteSize_rooted_le (List.prefix_append _ _)) hlength
    obtain ⟨⟨places, hfurnished⟩, place, id, hlast⟩ := ih hfront hshorter
    -- The directory above is the last that was provided before.
    obtain rfl : id = above := by
      have hwalk := ((lookUp_rooted_eq_ok_iff hfront hshorter here).mp hlast.lookUp_eq).walk_eq
      rw [hcourse.walk_eq] at hwalk
      cases hwalk
      rfl
    have hvacantPlace : t'.at? (place ++ [name]) = none := by
      rw [hfurnished.sound.at?_eq_none_iff, descend_append_singleton, hlast.descend_eq,
        Option.bind_some, hvacant.child?_eq]
    have hnone : t.at? (place ++ [name]) = none := by
      rw [hfurnished.at?_of_ne_directory (by simp [hvacantPlace]), hvacantPlace]
    have hnew := hlast.below h hfurnished.sound hnames hlength hvacant hnone
    rw [levels_concat, ← List.append_assoc]
    exact ⟨⟨_, hfurnished.addNode hlast.descend_eq hvacant hnew⟩, _, _, hnew⟩

end Furnish

end Fixtures.Tree
