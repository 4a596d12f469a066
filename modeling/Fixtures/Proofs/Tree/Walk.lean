import Fixtures.Proofs.Path
import Fixtures.Tree.Walk

/-!
# Walks and normal forms

A walk to a directory does not depend on the steps that go nowhere: steps that stay where they are,
and the slash at the end of a text. They may stand anywhere on the way, before and behind links, as
long as the walk ends at a directory. Two texts that stand for one path differ in such steps only,
so they lead to the same directory or neither leads to one.
-/

namespace Fixtures.Tree

/-- Whether a step goes somewhere. -/
def Step.isMove : Step → Bool
  | .up | .name _ => true
  | .stay | .finalSlash => false

/-- The only piece that goes nowhere is a dot. -/
theorem Step.isMove_ofPiece (piece : List Char) :
    (Step.ofPiece piece).isMove = decide (piece ≠ ['.']) := by
  unfold Step.ofPiece
  by_cases hdot : piece = ['.']
  · rw [if_pos hdot]
    simp [isMove, hdot]
  · rw [if_neg hdot]
    split <;> simp [isMove, hdot]

/-- The steps of pieces that go somewhere are those of the parts among the pieces. -/
theorem filter_isMove_map_ofPiece (pieces : List (List Char)) :
    ((pieces.filter fun piece => !piece.isEmpty).map Step.ofPiece).filter Step.isMove =
      ((pieces.map String.ofList).filter fun part => part != "" && part != ".").map
        fun part => Step.ofPiece part.toList := by
  induction pieces with
  | nil => rfl
  | cons piece rest ih =>
    rw [List.map_cons, List.filter_cons, List.filter_cons]
    have hempty : (String.ofList piece = "") ↔ piece = [] := by simp
    have hdot : (String.ofList piece = ".") ↔ piece = ['.'] := by
      rw [← String.toList_inj, String.toList_ofList]
      rfl
    by_cases hnil : piece = []
    · simpa [hnil] using ih
    · by_cases hstay : piece = ['.']
      · simpa [hstay, Step.ofPiece, Step.isMove] using ih
      · have hmove : (Step.ofPiece piece).isMove = true := by simp [Step.isMove_ofPiece, hstay]
        have hkept : (String.ofList piece != "" && String.ofList piece != ".") = true := by
          simp [hempty, hdot, hnil, hstay]
        have hsome : (!piece.isEmpty) = true := by simp [hnil]
        simp only [hsome, hkept, if_true, List.map_cons, List.filter_cons, hmove, ih,
          String.toList_ofList]

/-- The steps of a text that go somewhere are those of the parts of its path. -/
theorem filter_isMove_stepsOfChars (cs : List Char) :
    (stepsOfChars cs).filter Step.isMove =
      (Path.partsOfChars cs).map fun part => Step.ofPiece part.toList := by
  rw [Path.partsOfChars, ← filter_isMove_map_ofPiece]
  dsimp only [stepsOfChars]
  split
  · rw [List.filter_append]
    simp [Step.isMove]
  · rfl

/-- Where a walk begins depends on the anchor of a text's path. -/
theorem origin_eq (cs : List Char) (here : NodeId) :
    origin cs here = if Path.Anchor.ofChars cs = .relative then here else root := by
  have hrelative := Path.Anchor.ofChars_eq_relative_iff cs
  unfold origin
  by_cases hslash : cs.head? = some '/'
  · rw [if_pos hslash, if_neg fun h => hrelative.mp h hslash]
  · rw [if_neg hslash, if_pos (hrelative.mpr hslash)]

variable {t : Tree}

/-- A walk has ended at a directory. -/
def LeadsTo (t : Tree) (arrival : Except Fault Arrival) (id : NodeId) : Prop :=
  arrival = .ok (.node id) ∧ (t.directory? id).isSome

/-- A directory is no link. -/
theorem target?_of_directory? {id : NodeId} {directory : Directory}
    (h : t.directory? id = some directory) : t.target? id = none := by
  unfold directory? at h
  unfold target?
  cases hnode : t.node? id with
  | none => rfl
  | some node =>
    cases node with
    | directory d => rfl
    | file content => simp [hnode] at h
    | link target => simp [hnode] at h

/-- A walk that ends at a missing name leads to no directory. -/
theorem not_leadsTo_of_vacant (t : Tree) (last : Bool) (place : NodeId) (name : String)
    (id : NodeId) :
    ¬ t.LeadsTo (if last then .ok (.vacant place name) else .error .noEntry) id := by
  cases last <;> simp [LeadsTo]

/-- A walk that begins at something else than a directory leads to none. -/
theorem not_leadsTo_of_directory? {creating : Bool}
    {follow : NodeId → List Step → Except Fault Arrival} {here : NodeId}
    (h : t.directory? here = none) (steps : List Step) (id : NodeId) :
    ¬ t.LeadsTo (t.passAlong creating follow here steps) id := by
  rintro ⟨harrival, hid⟩
  cases steps with
  | nil =>
    rw [passAlong] at harrival
    cases harrival
    simp [h] at hid
  | cons step rest => simp [passAlong, h] at harrival

/-- Up to the next link, and behind it if that holds there, a walk that is not for making a file
leads to the same directory without the steps that go nowhere. -/
theorem leadsTo_passAlong_filter {follow : NodeId → List Step → Except Fault Arrival}
    (hfollow : ∀ here steps id, t.LeadsTo (follow here steps) id ↔
      t.LeadsTo (follow here (steps.filter Step.isMove)) id)
    (here : NodeId) (steps : List Step) (id : NodeId) :
    t.LeadsTo (t.passAlong false follow here steps) id ↔
      t.LeadsTo (t.passAlong false follow here (steps.filter Step.isMove)) id := by
  induction steps generalizing here with
  | nil => exact Iff.rfl
  | cons step rest ih =>
    cases hdirectory : t.directory? here with
    | none =>
      exact iff_of_false (not_leadsTo_of_directory? hdirectory _ _)
        (not_leadsTo_of_directory? hdirectory _ _)
    | some directory =>
      cases hmove : step.isMove with
      | false =>
        have hstay : enter directory here step = .ok (.node here) := by
          cases step with
          | stay => rfl
          | finalSlash => rfl
          | up => cases hmove
          | name name => cases hmove
        have hpass : t.passAlong false follow here (step :: rest) =
            t.passAlong false follow here rest := by
          simp [passAlong, hdirectory, hstay, target?_of_directory? hdirectory]
        rw [hpass, List.filter_cons_of_neg (by simp [hmove])]
        exact ih here
      | true =>
        rw [List.filter_cons_of_pos hmove]
        cases henter : enter directory here step with
        | error fault => simp [passAlong, hdirectory, henter, LeadsTo]
        | ok arrival =>
          cases arrival with
          | vacant place name =>
            simp only [passAlong, hdirectory, henter, Bool.false_and]
            exact iff_of_false (t.not_leadsTo_of_vacant _ place name id)
              (t.not_leadsTo_of_vacant _ place name id)
          | node next =>
            cases htarget : t.target? next with
            | none =>
              simp only [passAlong, hdirectory, henter, htarget, Bool.false_and]
              exact ih next
            | some target =>
              simp only [passAlong, hdirectory, henter, htarget, Bool.false_and]
              -- Behind the link there are its own steps, and the same steps as before.
              have h := hfollow (origin target.toList here)
                (stepsOfChars target.toList ++ rest) id
              have h' := hfollow (origin target.toList here)
                (stepsOfChars target.toList ++ rest.filter Step.isMove) id
              simp only [List.filter_append, List.filter_filter, Bool.and_self] at h h'
              exact h.trans h'.symm

/-- **Steps that go nowhere do not matter.** A walk leads to the same directory with and without
them, links included. -/
theorem leadsTo_walk_filter (t : Tree) (links : Nat) (here : NodeId) (steps : List Step)
    (id : NodeId) :
    t.LeadsTo (t.walk false links here steps) id ↔
      t.LeadsTo (t.walk false links here (steps.filter Step.isMove)) id := by
  induction links generalizing here steps id with
  | zero => exact leadsTo_passAlong_filter (fun _ _ _ => Iff.rfl) here steps id
  | succ links ih => exact leadsTo_passAlong_filter ih here steps id

/-- The look-up of a text that is neither empty nor too long is a walk along its steps. -/
theorem lookUp_eq_ok_iff {here id : NodeId} {text : String} (hne : text ≠ "")
    (hlength : text.utf8ByteSize ≤ pathLimit) : t.lookUp here text = .ok id ↔
      t.walk false linkLimit (origin text.toList here) (stepsOfChars text.toList) =
        .ok (.node id) := by
  have hsteps : steps text = .ok (stepsOfChars text.toList) := by
    simp [steps, hne, Nat.not_lt_of_le hlength]
  simp only [lookUp, hsteps, bind, Except.bind]
  cases t.walk false linkLimit (origin text.toList here) (stepsOfChars text.toList) with
  | error fault => simp
  | ok arrival => cases arrival <;> simp

/-- A text is looked up at a directory where a walk along the parts of its path leads to it. -/
theorem lookUp_directory_iff {text : String} (hne : text ≠ "")
    (hlength : text.utf8ByteSize ≤ pathLimit) (here id : NodeId) :
    t.lookUp here text = .ok id ∧ (t.directory? id).isSome ↔
      t.LeadsTo (t.walk false linkLimit
        (if (Path.ofText text).anchor = .relative then here else root)
        ((Path.ofText text).parts.map fun part => Step.ofPiece part.toList)) id := by
  have hwalk := t.leadsTo_walk_filter linkLimit (origin text.toList here)
    (stepsOfChars text.toList) id
  rw [filter_isMove_stepsOfChars, origin_eq] at hwalk
  rw [lookUp_eq_ok_iff hne hlength, origin_eq]
  exact hwalk

/-- **Texts that stand for one path** lead to the same directory, or neither leads to one. -/
theorem lookUp_directory_congr {text other : String} (hpath : Path.ofText text = Path.ofText other)
    (htext : text ≠ "") (hlength : text.utf8ByteSize ≤ pathLimit) (hother : other ≠ "")
    (hlength' : other.utf8ByteSize ≤ pathLimit) (here id : NodeId) :
    t.lookUp here text = .ok id ∧ (t.directory? id).isSome ↔
      t.lookUp here other = .ok id ∧ (t.directory? id).isSome := by
  rw [lookUp_directory_iff htext hlength, lookUp_directory_iff hother hlength', hpath]

/-- A text and the text of its path lead to the same directory, or neither leads to one. -/
theorem lookUp_toText_ofText_iff {text : String} (hne : text ≠ "")
    (hlength : text.utf8ByteSize ≤ pathLimit) (here id : NodeId) :
    t.lookUp here (Path.ofText text).toText = .ok id ∧ (t.directory? id).isSome ↔
      t.lookUp here text = .ok id ∧ (t.directory? id).isSome := by
  have hlength' : (Path.ofText text).toText.utf8ByteSize ≤ text.utf8ByteSize := by
    have h := String.utf8Len_le_of_sublist (Path.toText_ofText_sublist hne)
    rwa [← String.utf8ByteSize_ofList, ← String.utf8ByteSize_ofList, String.ofList_toList,
      String.ofList_toList] at h
  exact lookUp_directory_congr (Path.ofText_toText _) (Path.toText_ne_empty _)
    (hlength'.trans hlength) hne hlength here id

/-- Whether a text without a NUL leads to a directory is decided by its look-up. -/
theorem leadsToDirectory_eq_true_iff {here : NodeId} {text : String}
    (hnul : '\x00' ∉ text.toList) : t.leadsToDirectory here text = .ok true ↔
      ∃ id, t.lookUp here text = .ok id ∧ (t.directory? id).isSome := by
  unfold leadsToDirectory
  rw [if_neg (by simpa using hnul)]
  cases t.lookUp here text with
  | ok id => simp
  | error fault => cases fault <;> simp

/-! ## Why a look-up is refused -/

/-- The reasons to refuse a walk that is not for making a file. -/
def Fault.StopsWalk : Fault → Prop
  | .noEntry | .notDirectory | .nameTooLong | .tooManyLinks => True
  | _ => False

/-- A step is refused where nothing has its name, or where the name is too long. -/
theorem fault_of_enter {directory : Directory} {here : NodeId} {step : Step} {fault : Fault}
    (h : enter directory here step = .error fault) : fault.StopsWalk := by
  cases step with
  | name name =>
    simp only [enter] at h
    split at h
    · cases h
      trivial
    · split at h
      · cases h
        trivial
      · split at h <;> cases h
  | stay => cases h
  | up => cases h
  | finalSlash => cases h

/-- Up to the next link, and behind it if that holds there, a walk is refused for these reasons. -/
theorem fault_of_passAlong {follow : NodeId → List Step → Except Fault Arrival}
    (hfollow : ∀ here steps fault, follow here steps = .error fault → fault.StopsWalk)
    {here : NodeId} {steps : List Step} {fault : Fault}
    (h : t.passAlong false follow here steps = .error fault) : fault.StopsWalk := by
  induction steps generalizing here with
  | nil => cases h
  | cons step rest ih =>
    cases hdirectory : t.directory? here with
    | none =>
      simp only [passAlong, hdirectory] at h
      cases h
      trivial
    | some directory =>
      cases henter : enter directory here step with
      | error refusal =>
        simp only [passAlong, hdirectory, henter, Bool.false_and] at h
        cases h
        exact fault_of_enter henter
      | ok arrival =>
        cases arrival with
        | vacant place name =>
          simp only [passAlong, hdirectory, henter, Bool.false_and, Bool.false_eq_true,
            if_false] at h
          split at h
          · cases h
          · cases h
            trivial
        | node next =>
          cases htarget : t.target? next with
          | none =>
            simp only [passAlong, hdirectory, henter, htarget, Bool.false_and] at h
            exact ih h
          | some target =>
            simp only [passAlong, hdirectory, henter, htarget, Bool.false_and] at h
            exact hfollow _ _ _ h

/-- A walk that is not for making a file is refused for one of these reasons. -/
theorem fault_of_walk {links : Nat} {here : NodeId} {steps : List Step} {fault : Fault}
    (h : t.walk false links here steps = .error fault) : fault.StopsWalk := by
  induction links generalizing here steps fault with
  | zero =>
    refine fault_of_passAlong ?_ h
    rintro _ _ _ hfollow
    cases hfollow
    trivial
  | succ links ih => exact fault_of_passAlong (fun _ _ _ => ih) h

/-- A look-up is refused for one of these reasons. -/
theorem fault_of_lookUp {here : NodeId} {text : String} {fault : Fault}
    (h : t.lookUp here text = .error fault) : fault.StopsWalk := by
  unfold lookUp at h
  cases hsteps : steps text with
  | error refusal =>
    simp only [hsteps, bind, Except.bind] at h
    cases h
    unfold steps at hsteps
    split at hsteps
    · cases hsteps
      trivial
    · split at hsteps
      · cases hsteps
        trivial
      · cases hsteps
  | ok steps =>
    simp only [hsteps, bind, Except.bind] at h
    split at h
    · rename_i refusal hwalk
      cases h
      exact fault_of_walk hwalk
    · split at h
      · cases h
      · cases h
        trivial

/-- The step takes no name that is too long. -/
def Step.IsShort : Step → Prop
  | .name taken => taken.utf8ByteSize ≤ nameLimit
  | _ => True

/-- No link of the tree stands for a path with a name that is too long. -/
def HasShortLinks (t : Tree) : Prop :=
  ∀ id target, t.target? id = some target → ∀ step ∈ stepsOfChars target.toList, step.IsShort

/-- A step is refused for its length only if its name is too long. -/
theorem enter_ne_nameTooLong {directory : Directory} {here : NodeId} {step : Step}
    (hshort : step.IsShort) : enter directory here step ≠ .error .nameTooLong := by
  cases step with
  | name name =>
    have hle : ¬ nameLimit < name.utf8ByteSize := Nat.not_lt_of_le hshort
    simp only [enter, if_neg hle]
    split
    · simp
    · split <;> simp
  | stay => simp [enter]
  | up => simp [enter]
  | finalSlash => simp [enter]

/-- Short steps are not refused for their length, up to the next link, and behind it if that holds
there. -/
theorem passAlong_ne_nameTooLong (hlinks : t.HasShortLinks)
    {follow : NodeId → List Step → Except Fault Arrival}
    (hfollow : ∀ here steps, (∀ step ∈ steps, step.IsShort) →
      follow here steps ≠ .error .nameTooLong)
    (here : NodeId) {steps : List Step} (hshort : ∀ step ∈ steps, step.IsShort) :
    t.passAlong false follow here steps ≠ .error .nameTooLong := by
  induction steps generalizing here with
  | nil => simp [passAlong]
  | cons step rest ih =>
    simp only [List.mem_cons, forall_eq_or_imp] at hshort
    cases hdirectory : t.directory? here with
    | none => simp [passAlong, hdirectory]
    | some directory =>
      have henter : enter directory here step ≠ .error .nameTooLong :=
        enter_ne_nameTooLong hshort.1
      cases harrival : enter directory here step with
      | error fault =>
        rw [harrival] at henter
        simpa [passAlong, hdirectory, harrival] using henter
      | ok arrival =>
        cases arrival with
        | vacant place name =>
          simp only [passAlong, hdirectory, harrival, Bool.false_and]
          cases rest <;> simp
        | node next =>
          cases htarget : t.target? next with
          | none =>
            simp only [passAlong, hdirectory, harrival, htarget, Bool.false_and]
            exact ih next hshort.2
          | some target =>
            simp only [passAlong, hdirectory, harrival, htarget, Bool.false_and]
            apply hfollow
            intro step hstep
            rcases List.mem_append.mp hstep with hstep | hstep
            · exact hlinks next target htarget step hstep
            · exact hshort.2 step hstep

/-- Short steps are not refused for their length. -/
theorem walk_ne_nameTooLong (hlinks : t.HasShortLinks) (links : Nat) (here : NodeId)
    {steps : List Step} (hshort : ∀ step ∈ steps, step.IsShort) :
    t.walk false links here steps ≠ .error .nameTooLong := by
  induction links generalizing here steps with
  | zero => exact passAlong_ne_nameTooLong hlinks (fun _ _ _ => by simp) here hshort
  | succ links ih =>
    exact passAlong_ne_nameTooLong hlinks (fun here _ hsteps => ih here hsteps) here hshort

/-- The names among the steps of a text are its parts, and none of them goes up. -/
theorem mem_partsOfChars_of_name {cs : List Char} {name : String}
    (h : Step.name name ∈ stepsOfChars cs) : name ∈ Path.partsOfChars cs ∧ name ≠ ".." := by
  have hmove : Step.name name ∈ (stepsOfChars cs).filter Step.isMove :=
    List.mem_filter.mpr ⟨h, rfl⟩
  rw [filter_isMove_stepsOfChars] at hmove
  obtain ⟨part, hpart, hstep⟩ := List.mem_map.mp hmove
  unfold Step.ofPiece at hstep
  split at hstep
  · cases hstep
  · split at hstep
    · cases hstep
    · rename_i hup
      rw [String.ofList_toList] at hstep
      obtain rfl : part = name := Step.name.inj hstep
      refine ⟨hpart, ?_⟩
      rintro rfl
      exact hup rfl

/-- The names among the steps of a path's text are parts of the path. -/
theorem mem_parts_of_name_mem_steps {path : Path} {name : String}
    (h : Step.name name ∈ stepsOfChars path.toText.toList) : name ∈ path.parts := by
  have hparts : Path.partsOfChars path.toText.toList = path.parts :=
    congrArg Path.parts (Path.ofText_toText path)
  rw [← hparts]
  exact (mem_partsOfChars_of_name h).1

/-- A path of few bytes with short parts is not refused for its length, where links are short. -/
theorem lookUp_ne_nameTooLong (hlinks : t.HasShortLinks) (here : NodeId) {path : Path}
    (hlength : path.toText.utf8ByteSize ≤ pathLimit)
    (hparts : ∀ part ∈ path.parts, part.utf8ByteSize ≤ nameLimit) :
    t.lookUp here path.toText ≠ .error .nameTooLong := by
  have hshort : ∀ step ∈ stepsOfChars path.toText.toList, step.IsShort := by
    intro step hstep
    cases step with
    | name name => exact hparts name (mem_parts_of_name_mem_steps hstep)
    | stay => trivial
    | up => trivial
    | finalSlash => trivial
  have hsteps : steps path.toText = .ok (stepsOfChars path.toText.toList) := by
    simp [steps, path.toText_ne_empty, Nat.not_lt_of_le hlength]
  have hwalk := walk_ne_nameTooLong hlinks linkLimit (origin path.toText.toList here) hshort
  simp only [lookUp, hsteps, bind, Except.bind]
  split
  · rename_i fault hfault
    rintro hlong
    cases hlong
    exact hwalk hfault
  · split <;> simp

/-- The text of a part is one step. -/
theorem stepsOfChars_of_isPart {part : String} (h : Path.IsPart part) :
    stepsOfChars part.toList = [Step.ofPiece part.toList] := by
  obtain ⟨hempty, _, hslash⟩ := h
  have hne : part.toList ≠ [] := by simpa using hempty
  have hend : part.toList.getLast? ≠ some '/' := fun hlast =>
    hslash (List.mem_of_getLast? hlast)
  simp [stepsOfChars, splitSlashes_of_not_mem hslash, hne, hend]

/-- A name that is too long is refused where it is looked up. -/
theorem lookUp_of_long_name {here : NodeId} {directory : Directory} {name : String}
    (hhere : t.directory? here = some directory) (hkept : directory.removed = false)
    (hpart : Path.IsPart name) (hlong : nameLimit < name.utf8ByteSize)
    (hlength : name.utf8ByteSize ≤ pathLimit) :
    t.lookUp here name = .error .nameTooLong := by
  have hup : name.toList ≠ ['.', '.'] := by
    intro hup
    have hname : name = ".." := String.toList_inj.mp hup
    rw [hname] at hlong
    exact absurd hlong (by decide)
  have hstay : name.toList ≠ ['.'] := fun hdot => hpart.2.1 (String.toList_inj.mp hdot)
  have hstep : Step.ofPiece name.toList = .name name := by
    rw [Step.ofPiece, if_neg hstay, if_neg hup, String.ofList_toList]
  have hsteps : steps name = .ok [.name name] := by
    rw [← hstep, ← stepsOfChars_of_isPart hpart]
    simp [steps, hpart.1, Nat.not_lt_of_le hlength]
  have hhead : (Path.joinParts [name]).head? ≠ some '/' :=
    Path.head?_joinParts_ne (by simpa using hpart)
  have horigin : origin name.toList here = here := if_neg hhead
  have hwalk : t.walk false linkLimit here [.name name] = .error .nameTooLong := by
    simp [linkLimit, walk, passAlong, hhere, enter, hkept, hlong]
  simp only [lookUp, hsteps, horigin, hwalk, bind, Except.bind]

end Fixtures.Tree
