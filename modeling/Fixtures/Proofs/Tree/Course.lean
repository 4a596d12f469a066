import Fixtures.Proofs.Tree.Ascent
import Fixtures.Proofs.Tree.Edit

/-!
# The course of a walk

A walk that arrives has a course: directories one below or above the other, and links on the way
with the steps of what they stand for. What a course says holds piece by piece, so courses are taken
apart and put together where their steps are, and in a tree in which every directory is below the
root a course from there never leaves the places that names lead to.
-/

namespace Fixtures.Tree

/-- The course of a walk that arrives somewhere and takes no more than a number of links. -/
inductive Course (t : Tree) : (links : Nat) → NodeId → List Step → Arrival → Prop where
  /-- Without a step it stays. -/
  | here {links : Nat} {id : NodeId} : Course t links id [] (.node id)
  /-- Its last step finds a name missing. -/
  | vacant {links : Nat} {here place : NodeId} {directory : Directory} {step : Step} {name : String}
      (hhere : t.directory? here = some directory)
      (henter : enter directory here step = .ok (.vacant place name)) :
      Course t links here [step] (.vacant place name)
  /-- A step leads to a node that is no link. -/
  | pass {links : Nat} {here next : NodeId} {directory : Directory} {step : Step}
      {rest : List Step} {arrival : Arrival} (hhere : t.directory? here = some directory)
      (henter : enter directory here step = .ok (.node next)) (htarget : t.target? next = none)
      (hrest : Course t links next rest arrival) : Course t links here (step :: rest) arrival
  /-- A step leads to a link, whose own steps are taken before the others. -/
  | link {links : Nat} {here next : NodeId} {directory : Directory} {step : Step} {target : String}
      {rest : List Step} {arrival : Arrival} (hhere : t.directory? here = some directory)
      (henter : enter directory here step = .ok (.node next))
      (htarget : t.target? next = some target)
      (hrest : Course t links (origin target.toList here) (stepsOfChars target.toList ++ rest)
        arrival) : Course t (links + 1) here (step :: rest) arrival

variable {t : Tree} {links : Nat} {here id mid place : NodeId} {step : Step}
  {steps front back : List Step} {arrival : Arrival} {name : String}

/-! ## Walks that arrive have a course -/

/-- A walk without steps stays. -/
theorem walk_nil (t : Tree) (creating : Bool) (links : Nat) (here : NodeId) :
    t.walk creating links here [] = .ok (.node here) := by
  obtain ⟨follow, hwalk⟩ := t.exists_walk_eq creating links
  rw [hwalk, passAlong]

section WalkCons

variable {directory : Directory} {next : NodeId} {rest : List Step}
  (hhere : t.directory? here = some directory)

include hhere

/-- A walk ends where a name is missing. -/
theorem walk_cons_of_vacant (henter : enter directory here step = .ok (.vacant place name)) :
    t.walk false links here (step :: rest) =
      if rest.isEmpty then .ok (.vacant place name) else .error .noEntry := by
  obtain ⟨follow, hwalk⟩ := t.exists_walk_eq false links
  rw [hwalk]
  simp [passAlong, hhere, henter]

/-- A walk goes on from a node that is no link. -/
theorem walk_cons_of_pass (henter : enter directory here step = .ok (.node next))
    (htarget : t.target? next = none) :
    t.walk false links here (step :: rest) = t.walk false links next rest := by
  obtain ⟨follow, hwalk⟩ := t.exists_walk_eq false links
  rw [hwalk]
  simp [passAlong, hhere, henter, htarget]

/-- A walk goes on with the steps of a link, and may take one link less from there. -/
theorem walk_cons_of_link {target : String} (henter : enter directory here step = .ok (.node next))
    (htarget : t.target? next = some target) :
    t.walk false (links + 1) here (step :: rest) =
      t.walk false links (origin target.toList here) (stepsOfChars target.toList ++ rest) := by
  rw [walk]
  simp [passAlong, hhere, henter, htarget]

end WalkCons

/-- The walk that has a course arrives where the course does. -/
theorem Course.walk_eq (h : t.Course links here steps arrival) :
    t.walk false links here steps = .ok arrival := by
  induction h with
  | here => exact walk_nil t false _ _
  | vacant hhere henter => exact walk_cons_of_vacant hhere henter
  | pass hhere henter htarget _ ih => rw [walk_cons_of_pass hhere henter htarget, ih]
  | link hhere henter htarget _ ih => rw [walk_cons_of_link hhere henter htarget, ih]

/-- Up to the next link a walk that arrives has a course, if it has one behind the link. -/
theorem course_of_passAlong {creating : Bool} {follow : NodeId → List Step → Except Fault Arrival}
    (hfollow : ∀ here steps arrival, follow here steps = .ok arrival →
      ∃ less, links = less + 1 ∧ t.Course less here steps arrival)
    (h : t.passAlong creating follow here steps = .ok arrival) :
    t.Course links here steps arrival := by
  induction steps generalizing here with
  | nil =>
    cases h
    exact .here
  | cons step rest ih =>
    unfold passAlong at h
    split at h
    · cases h
    · rename_i directory hhere
      split at h
      · cases h
      · split at h
        · cases h
        · rename_i found missing henter
          split at h
          · rename_i hlast
            cases h
            rw [List.isEmpty_iff.mp hlast]
            exact .vacant hhere henter
          · cases h
        · rename_i next henter
          split at h
          · rename_i target htarget
            obtain ⟨less, rfl, hrest⟩ := hfollow _ _ _ h
            exact .link hhere henter htarget hrest
          · rename_i htarget
            exact .pass hhere henter htarget (ih h)

/-- A walk that arrives has a course, also if it is for making a file. -/
theorem course_of_walk {creating : Bool} (h : t.walk creating links here steps = .ok arrival) :
    t.Course links here steps arrival := by
  induction links generalizing here steps arrival with
  | zero => exact course_of_passAlong (fun _ _ _ hfollow => by cases hfollow) h
  | succ links ih =>
    exact course_of_passAlong (fun _ _ _ hfollow => ⟨links, rfl, ih hfollow⟩) h

/-- **The course of a walk.** A walk arrives exactly where it has a course to. -/
theorem walk_eq_ok_iff :
    t.walk false links here steps = .ok arrival ↔ t.Course links here steps arrival :=
  ⟨course_of_walk, Course.walk_eq⟩

/-! ## Courses one behind the other -/

namespace Course

/-- A walk may take more links than it does. -/
theorem mono (h : t.Course links here steps arrival) {more : Nat} (hmore : links ≤ more) :
    t.Course more here steps arrival := by
  induction h generalizing more with
  | here => exact .here
  | vacant hhere henter => exact .vacant hhere henter
  | pass hhere henter htarget _ ih => exact .pass hhere henter htarget (ih hmore)
  | link hhere henter htarget _ ih =>
    obtain ⟨less, rfl⟩ := Nat.exists_eq_add_of_lt hmore
    exact .link hhere henter htarget (ih (Nat.le_add_right _ _))

/-- Behind a course to a node another one goes on; the links of both are taken. -/
theorem append {links' : Nat} (h : t.Course links here front (.node mid))
    (h' : t.Course links' mid back arrival) :
    t.Course (links + links') here (front ++ back) arrival := by
  generalize hmid : Arrival.node mid = middle at h
  induction h with
  | here =>
    cases hmid
    exact h'.mono (Nat.le_add_left _ _)
  | vacant hhere henter => cases hmid
  | pass hhere henter htarget _ ih => exact .pass hhere henter htarget (ih hmid)
  | link hhere henter htarget _ ih =>
    have hrest := ih hmid
    rw [List.append_assoc] at hrest
    rw [Nat.succ_add]
    exact .link hhere henter htarget hrest

/-- A course through more steps than the first ones goes through a node that these lead to. -/
theorem split (h : t.Course links here (front ++ back) arrival) (hback : back ≠ []) :
    ∃ mid, t.Course links here front (.node mid) ∧ t.Course links mid back arrival := by
  generalize hsteps : front ++ back = steps at h
  induction h generalizing front with
  | here => exact absurd (List.append_eq_nil_iff.mp hsteps).2 hback
  | vacant hhere henter =>
    cases front with
    | nil =>
      obtain rfl : back = _ := hsteps
      exact ⟨_, .here, .vacant hhere henter⟩
    | cons step front =>
      have hnil : front ++ back = [] := (List.cons.inj hsteps).2
      exact absurd (List.append_eq_nil_iff.mp hnil).2 hback
  | pass hhere henter htarget hrest ih =>
    cases front with
    | nil =>
      obtain rfl : back = _ := hsteps
      exact ⟨_, .here, .pass hhere henter htarget hrest⟩
    | cons step front =>
      obtain ⟨rfl, hrest'⟩ := List.cons.inj hsteps
      obtain ⟨mid, hfront, hbehind⟩ := ih hrest'
      exact ⟨mid, .pass hhere henter htarget hfront, hbehind⟩
  | link hhere henter htarget hrest ih =>
    cases front with
    | nil =>
      obtain rfl : back = _ := hsteps
      exact ⟨_, .here, .link hhere henter htarget hrest⟩
    | cons step front =>
      obtain ⟨rfl, rfl⟩ := List.cons.inj hsteps
      obtain ⟨mid, hfront, hbehind⟩ := ih (List.append_assoc ..)
      exact ⟨mid, .link hhere henter htarget hfront, hbehind.mono (Nat.le_succ _)⟩

end Course

/-- The node that a walk has to arrive at where something is looked up. -/
def Arrival.settle : Arrival → Except Fault NodeId
  | .node id => .ok id
  | .vacant _ _ => .error .noEntry

/-- Up to the next link, and behind it if that holds there, no further step helps a walk that leads
to no node. -/
theorem passAlong_append_of_settle {follow : NodeId → List Step → Except Fault Arrival}
    {fault : Fault} (hback : back ≠ [])
    (hfollow : ∀ here steps, (follow here steps).bind Arrival.settle = .error fault →
      follow here (steps ++ back) = .error fault)
    (h : (t.passAlong false follow here front).bind Arrival.settle = .error fault) :
    t.passAlong false follow here (front ++ back) = .error fault := by
  induction front generalizing here with
  | nil => cases h
  | cons step rest ih =>
    cases hhere : t.directory? here with
    | none =>
      simp only [passAlong, hhere, Except.bind] at h
      cases h
      simp only [List.cons_append, passAlong, hhere]
    | some directory =>
      cases henter : enter directory here step with
      | error refusal =>
        simp only [passAlong, hhere, henter, Bool.false_and, Except.bind] at h
        simpa [passAlong, hhere, henter] using h
      | ok found =>
        cases found with
        | vacant place name =>
          have hfault : fault = .noEntry := by
            cases rest <;> simpa [passAlong, hhere, henter, Except.bind, Arrival.settle, eq_comm]
              using h
          simp [passAlong, hhere, henter, hback, hfault]
        | node next =>
          cases htarget : t.target? next with
          | some target =>
            simp only [passAlong, hhere, henter, htarget, Bool.false_and] at h
            have hrest := hfollow _ _ h
            rw [List.append_assoc] at hrest
            simpa [passAlong, hhere, henter, htarget] using hrest
          | none =>
            simp only [passAlong, hhere, henter, htarget, Bool.false_and] at h
            simpa [passAlong, hhere, henter, htarget] using ih h

/-- No further step helps a walk that leads to no node. -/
theorem walk_append_of_settle {fault : Fault} (hback : back ≠ [])
    (h : (t.walk false links here front).bind Arrival.settle = .error fault) :
    t.walk false links here (front ++ back) = .error fault := by
  induction links generalizing here front with
  | zero =>
    refine passAlong_append_of_settle hback (fun _ _ hfollow => ?_) h
    cases hfollow
    rfl
  | succ links ih => exact passAlong_append_of_settle hback (fun _ _ => ih) h

/-! ## Look-ups -/

/-- A text is looked up where its steps have a course to. -/
theorem lookUp_eq_ok_iff_course {text : String} :
    t.lookUp here text = .ok id ↔ ∃ steps, Tree.steps text = .ok steps ∧
      t.Course linkLimit (origin text.toList here) steps (.node id) := by
  unfold lookUp
  cases hsteps : Tree.steps text with
  | error fault => simp [bind, Except.bind]
  | ok steps =>
    simp only [bind, Except.bind, Except.ok.injEq, exists_eq_left', ← walk_eq_ok_iff]
    cases t.walk false linkLimit (origin text.toList here) steps with
    | error fault => simp
    | ok arrival => cases arrival <;> simp

/-- Where walks to a node lead to it again, so do look-ups. -/
theorem lookUp_of_courses {t' : Tree} (h : ∀ links here steps node,
    t.Course links here steps (.node node) → t'.Course links here steps (.node node))
    {text : String} (hlookUp : t.lookUp here text = .ok id) : t'.lookUp here text = .ok id := by
  rw [lookUp_eq_ok_iff_course] at hlookUp ⊢
  obtain ⟨steps, hsteps, hcourse⟩ := hlookUp
  exact ⟨steps, hsteps, h _ _ _ _ hcourse⟩

section LookUp

variable {names : List String} (hnames : ∀ name ∈ names, IsName name)
  (hlength : (Path.rooted names).utf8ByteSize ≤ pathLimit)

include hnames hlength

/-- The look-up of a path along names is a walk along them from the root. -/
theorem lookUp_rooted_eq (t : Tree) (here : NodeId) :
    t.lookUp here (Path.rooted names) =
      (t.walk false linkLimit root (names.map Step.name)).bind Arrival.settle := by
  simp only [lookUp, steps_rooted hnames hlength, origin_rooted, bind, Except.bind]
  cases t.walk false linkLimit root (names.map Step.name) with
  | error fault => rfl
  | ok arrival => cases arrival <;> rfl

/-- A path along names is looked up where it has a course to. -/
theorem lookUp_rooted_eq_ok_iff (here : NodeId) :
    t.lookUp here (Path.rooted names) = .ok id ↔
      t.Course linkLimit root (names.map Step.name) (.node id) := by
  rw [lookUp_eq_ok_iff_course, steps_rooted hnames hlength, origin_rooted]
  simp

end LookUp

/-! ## Places below the root -/

/-- The node has a place that names lead to from the root. -/
def Placed (t : Tree) (id : NodeId) : Prop :=
  ∃ names, t.descend names = some id

/-- A well-formed tree in which the root is above itself, so that no way leads out of it. -/
structure Sound (t : Tree) : Prop extends WellFormed t where
  /-- Above the root there is the root. -/
  above_root : ∀ directory, t.directory? root = some directory → directory.parent = root

/-- The tree that has a root and nothing else is sound. -/
theorem sound_empty : Tree.empty.Sound where
  toWellFormed := wellFormed_empty
  above_root := fun directory h => by
    cases h
    rfl

/-- The root has its place. -/
theorem placed_root (t : Tree) : t.Placed root :=
  ⟨[], rfl⟩

/-- A node under a name has its place below the directory. -/
theorem Placed.child (h : t.Placed id) {next : NodeId} (hchild : t.child? id name = some next) :
    t.Placed next := by
  obtain ⟨names, hid⟩ := h
  refine ⟨names ++ [name], ?_⟩
  rw [descend_append_singleton, hid, Option.bind_some, hchild]

/-- The directory above a directory that has a place has one too. -/
theorem Sound.placed_parent (h : t.Sound) (hid : t.Placed id) {directory : Directory}
    (hdirectory : t.directory? id = some directory) : t.Placed directory.parent := by
  obtain ⟨names, hid⟩ := hid
  exact ⟨names.dropLast, (h.nested.descend_dropLast h.above_root hid hdirectory).1⟩

/-- A step from a place leads to a place. -/
theorem Sound.placed_of_enter (h : t.Sound) (hid : t.Placed here) {directory : Directory}
    {next : NodeId} (hhere : t.directory? here = some directory)
    (henter : enter directory here step = .ok (.node next)) : t.Placed next := by
  cases step with
  | stay =>
    cases henter
    exact hid
  | finalSlash =>
    cases henter
    exact hid
  | up =>
    cases henter
    exact h.placed_parent hid hhere
  | name name => exact hid.child (child?_of_enter hhere henter)

/-- The node that a walk arrives at, or the directory in which it finds a name missing. -/
def Arrival.site : Arrival → NodeId
  | .node id => id
  | .vacant place _ => place

/-- A step that finds a name missing is one to this name, and finds it missing where it is taken. -/
theorem step_of_enter {directory : Directory}
    (henter : enter directory here step = .ok (.vacant place name)) :
    here = place ∧ step = .name name := by
  cases step with
  | name wanted =>
    simp only [enter] at henter
    split at henter
    · cases henter
    · split at henter
      · cases henter
      · split at henter
        · cases henter
        · cases henter
          exact ⟨rfl, rfl⟩
  | stay => cases henter
  | up => cases henter
  | finalSlash => cases henter

/-- **Walks stay in the tree.** A course from a place leads to a place. -/
theorem Sound.placed_of_course (h : t.Sound) (hcourse : t.Course links here steps arrival)
    (hid : t.Placed here) : t.Placed arrival.site := by
  induction hcourse with
  | here => exact hid
  | vacant hhere henter => rwa [Arrival.site, ← (step_of_enter henter).1]
  | pass hhere henter _ _ ih => exact ih (h.placed_of_enter hid hhere henter)
  | link hhere henter _ _ ih =>
    refine ih ?_
    unfold origin
    split
    · exact t.placed_root
    · exact hid

end Fixtures.Tree
