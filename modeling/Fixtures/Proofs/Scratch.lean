import Fixtures.Proofs.Tree.Sharing
import Fixtures.Scratch

/-!
# The directory of scratch files as a map

Seen from the working directory the scratch files are a map from names to contents. To make one sets
its name in that map, whatever was made before, so of several under one name the last one counts.
Beside the map only the directories on the way to it can change, which are there afterwards. This is
so where no file that is written has a second name: a file that has one is shown under both of them
with what was written last.
-/

namespace Fixtures.Scratch

open Fixtures.Tree

/-- A scratch file that is asked for. -/
structure Call where
  /-- The name of the file. -/
  name : String
  /-- What is to be in it. -/
  content : List UInt8

/-- Makes one scratch file after the other: the surroundings afterwards, and what each answers. -/
def createAll (s : Surroundings) :
    List Call → Surroundings × List (Except Failure (NodeId × Note))
  | [] => (s, [])
  | call :: rest =>
    let (tree, result) := create s call.name call.content
    let (s, results) := createAll { s with tree := tree } rest
    (s, result :: results)

/-- The first of several scratch files, and then the others. -/
theorem createAll_cons {s : Surroundings} {call : Call} {rest : List Call} {t : Tree}
    {result : Except Failure (NodeId × Note)}
    (hcreated : create s call.name call.content = (t, result)) :
    createAll s (call :: rest) = ((createAll { s with tree := t } rest).1,
      result :: (createAll { s with tree := t } rest).2) := by
  rw [createAll, hcreated]

/-- The names on the way from the root to the directory of scratch files, given those on the way to
the working directory. -/
def below (place : List String) : List String :=
  place ++ Settings.scratchNames

/-- What is shown under the names of scratch files. -/
def files (place : List String) (view : List String → Option Thing) (name : String) :
    Option Thing :=
  view (below place ++ [name])

/-- The working directory is there, and on the way from it to the directory of scratch files there
is nothing else than directories. -/
structure Ready (s : Surroundings) (place : List String) : Prop where
  /-- The tree is well-formed, as it stays whatever is done in it. -/
  wellFormed : s.tree.WellFormed
  /-- The names lead to the working directory. -/
  here : s.tree.descend place = some s.workingDirectory
  /-- The working directory is a directory. -/
  stands : s.tree.at? place = some .directory
  /-- Every directory on the way is missing or is one. -/
  free : ∀ names, names <+: Settings.scratchNames →
    s.tree.at? (place ++ names) = none ∨ s.tree.at? (place ++ names) = some .directory

/-- A file can be made under a name: the name and the path to it are not too long, and there is
nothing or a file. -/
structure Allowed (s : Surroundings) (place : List String) (name : String) : Prop where
  /-- It is a name. -/
  isName : IsName name
  /-- The path to the file is short enough. -/
  short : (Path.rooted (below place ++ [name])).utf8ByteSize ≤ pathLimit
  /-- There is nothing or a file. -/
  vacant : files place s.tree.at? name = none ∨
    ∃ content, files place s.tree.at? name = some (.file content)

/-- What is shown after a scratch file has been made. -/
def written (place : List String) (view : List String → Option Thing) (call : Call) :
    List String → Option Thing :=
  Function.update (withDirectories (below place) view) (below place ++ [call.name])
    (some (.file call.content))

/-- The names of a scratch file are more than those of the directory. -/
theorem not_prefix_below (place : List String) (name : String) :
    ¬ below place ++ [name] <+: below place := by
  intro h
  have hlength := h.length_le
  rw [List.length_append, List.length_singleton] at hlength
  exact Nat.not_succ_le_self _ hlength

/-- The names of two scratch files are different where their last ones are. -/
theorem below_append_ne {place : List String} {name other : String} (h : name ≠ other) :
    below place ++ [name] ≠ below place ++ [other] := by
  intro heq
  exact h (List.singleton_inj.mp (List.append_cancel_left heq))

/-- A map from names after a scratch file: the name of the file is set. -/
def setFile (entries : String → Option Thing) (call : Call) : String → Option Thing :=
  Function.update entries call.name (some (.file call.content))

/-! ## What is shown after a scratch file -/

section Written

variable {place : List String} (view : List String → Option Thing) {call first second : Call}

/-- Nothing else changes outside the directory of scratch files. -/
theorem written_of_ne {other : List String} (hother : ∀ name, other ≠ below place ++ [name]) :
    written place view call other =
      if other <+: below place then some .directory else view other := by
  rw [written, Function.update_of_ne (hother call.name), withDirectories]

/-- Among the scratch files one name is set. -/
theorem files_written :
    files place (written place view call) = setFile (files place view) call := by
  funext name
  unfold setFile files written
  by_cases hname : name = call.name
  · rw [hname, Function.update_self, Function.update_self]
  · rw [Function.update_of_ne hname, Function.update_of_ne (below_append_ne hname),
      withDirectories, if_neg (not_prefix_below place name)]

/-- The directories are there after the first of two scratch files. -/
theorem written_written :
    written place (written place view first) second =
      Function.update (Function.update (withDirectories (below place) view)
        (below place ++ [first.name]) (some (.file first.content)))
        (below place ++ [second.name]) (some (.file second.content)) := by
  unfold written
  rw [withDirectories_update (not_prefix_below place first.name), withDirectories_idem]

/-- Two scratch files with different names can be made in any order. -/
theorem written_comm (hname : first.name ≠ second.name) :
    written place (written place view first) second =
      written place (written place view second) first := by
  rw [written_written, written_written, Function.update_comm (below_append_ne hname)]

/-- Of two scratch files with one name the second counts. -/
theorem written_absorb (hname : first.name = second.name) :
    written place (written place view first) second = written place view second := by
  rw [written_written, hname, Function.update_idem]
  rfl

/-- After several scratch files their names are set, one after the other. -/
theorem files_foldl_written (calls : List Call) :
    files place (calls.foldl (written place) view) = calls.foldl setFile (files place view) := by
  induction calls generalizing view with
  | nil => rfl
  | cons call rest ih => rw [List.foldl_cons, ih, files_written, List.foldl_cons]

/-- After several scratch files nothing else has changed outside their directory. -/
theorem foldl_written_of_ne {other : List String}
    (hother : ∀ name, other ≠ below place ++ [name]) (calls : List Call) :
    calls.foldl (written place) view other =
      if calls ≠ [] ∧ other <+: below place then some .directory else view other := by
  induction calls generalizing view with
  | nil => simp
  | cons call rest ih =>
    rw [List.foldl_cons, ih, written_of_ne view hother]
    by_cases hbefore : other <+: below place <;> simp [hbefore]

end Written

/-- A name that is not set again is as it was. -/
theorem foldl_setFile_of_forall_ne {calls : List Call} {name : String}
    (hcalls : ∀ call ∈ calls, call.name ≠ name) (entries : String → Option Thing) :
    calls.foldl setFile entries name = entries name := by
  induction calls generalizing entries with
  | nil => rfl
  | cons call rest ih =>
    have hname : name ≠ call.name := (hcalls call List.mem_cons_self).symm
    rw [List.foldl_cons, ih fun later hlater => hcalls later (List.mem_cons_of_mem _ hlater),
      setFile, Function.update_of_ne hname]

/-- A name has what it was set to last. -/
theorem foldl_setFile_of_last {front back : List Call} {call : Call}
    (hback : ∀ later ∈ back, later.name ≠ call.name) (entries : String → Option Thing) :
    (front ++ call :: back).foldl setFile entries call.name = some (.file call.content) := by
  rw [List.foldl_append, List.foldl_cons, foldl_setFile_of_forall_ne hback, setFile,
    Function.update_self]

/-! ## One scratch file -/

/-- The names of the directories are names. -/
theorem isName_of_mem_scratchNames : ∀ name ∈ Settings.scratchNames, IsName name := by
  decide

variable {s : Surroundings} {place : List String} {call : Call}

/-- The path of the directory of scratch files goes along the names. -/
theorem directoryBelow_rooted (hplace : ∀ part ∈ place, Path.IsPart part) :
    (directoryBelow (Path.ofText (Path.rooted place))).anchor = .root ∧
      (directoryBelow (Path.ofText (Path.rooted place))).parts = below place := by
  rw [Path.ofText_rooted hplace]
  exact Path.foldl_join_ofText (fun name hname => (isName_of_mem_scratchNames name hname).isPart) _

/-- Names below a list of others begin it, or go on behind it. -/
theorem prefix_below {front : List String} (h : front <+: below place) :
    front <+: place ∨ ∃ names, names <+: Settings.scratchNames ∧ front = place ++ names := by
  rcases List.prefix_or_prefix_of_prefix h (List.prefix_append place _) with hshort | hlong
  · exact Or.inl hshort
  · obtain ⟨names, rfl⟩ := hlong
    exact Or.inr ⟨names, (List.prefix_append_right_inj place).mp h, rfl⟩

namespace Ready

/-- All names on the way are names. -/
theorem isName (h : Ready s place) : ∀ name ∈ below place, IsName name :=
  List.forall_mem_append.mpr ⟨h.wellFormed.isName_of_descend h.here, isName_of_mem_scratchNames⟩

/-- Nothing else than directories is in the way. -/
theorem free_below (h : Ready s place) : s.tree.Free (below place) := by
  intro front hfront
  rcases prefix_below hfront with hshort | ⟨names, hnames, rfl⟩
  · exact Or.inr (at?_of_prefix_directory h.stands hshort)
  · exact h.free names hnames

/-- Where the directory of scratch files is there already nothing is in the way. -/
theorem of_directory (hwf : s.tree.WellFormed)
    (hhere : s.tree.descend place = some s.workingDirectory)
    (hshown : s.tree.at? (below place) = some .directory) : Ready s place where
  wellFormed := hwf
  here := hhere
  stands := at?_of_prefix_directory hshown (List.prefix_append place _)
  free := fun _ hnames => Or.inr
    (at?_of_prefix_directory hshown ((List.prefix_append_right_inj place).mpr hnames))

/-- The directory of scratch files has the path along these names. -/
theorem directory_eq (h : Ready s place) :
    directory s = .ok (directoryBelow (Path.ofText (Path.rooted place))) := by
  have hpath : s.tree.pathOf s.workingDirectory = .ok (Path.rooted place) :=
    h.wellFormed.pathOf_eq_ok_iff.mpr ⟨place, h.here, h.stands, rfl⟩
  unfold directory
  rw [hpath]

end Ready

/-- **One scratch file.** The directories on the way are made where they are missing, and then the
file is written and opened. -/
theorem create_ok (h : Ready s place) (hallowed : Allowed s place call.name) :
    ∃ middle t id path, create s call.name call.content =
        (t, .ok (id, .wrote call.content.length path)) ∧
      path.toText = Path.rooted (below place ++ [call.name]) ∧
      s.tree.Ensured middle (below place) ∧
      middle.Stored t (below place ++ [call.name]) call.content id := by
  obtain ⟨hanchor, hparts⟩ := directoryBelow_rooted fun part hpart =>
    (h.wellFormed.isName_of_descend h.here part hpart).isPart
  have hdirectory := h.directory_eq
  generalize directoryBelow (Path.ofText (Path.rooted place)) = directory
    at hanchor hparts hdirectory
  have hnames : ∀ name ∈ below place ++ [call.name], IsName name :=
    List.forall_mem_append.mpr ⟨h.isName, List.forall_mem_singleton.mpr hallowed.isName⟩
  -- The directory first.
  have hlength : directory.toText.utf8ByteSize ≤ pathLimit := by
    rw [Path.toText_of_root hanchor, hparts]
    exact Nat.le_trans (Path.utf8ByteSize_rooted_le (List.prefix_append _ _)) hallowed.short
  obtain ⟨middle, hmade, hensured⟩ := h.wellFormed.ensure_ok s.workingDirectory hanchor hlength
    (hparts ▸ h.isName) (hparts ▸ h.free_below)
  have hprepared : prepare s = (middle, .ok directory) := by
    unfold prepare
    rw [hdirectory]
    simp only [hmade]
  rw [hparts] at hensured
  -- Then the file in it.
  have hself : middle.at? (below place ++ [call.name]) = none ∨
      ∃ old, middle.at? (below place ++ [call.name]) = some (.file old) := by
    rw [hensured.at?_eq, withDirectories, if_neg (not_prefix_below place call.name)]
    exact hallowed.vacant
  obtain ⟨t, id, hwritten, hstored⟩ := hensured.wellFormed.writeFile_ok s.workingDirectory
    hallowed.short hensured.at?_self hallowed.isName hself call.content
  obtain ⟨hjoinAnchor, hjoinParts⟩ := Path.join_ofText hallowed.isName.isPart directory
  have htext : (directory.join (Path.ofText call.name)).toText =
      Path.rooted (below place ++ [call.name]) := by
    rw [Path.toText_of_root (hjoinAnchor.trans hanchor), hjoinParts, hparts]
  have hnul : (Path.rooted (below place ++ [call.name])).toList.contains '\x00' = false := by
    simpa using nul_not_mem_rooted hnames
  have hopened := hstored.openFile_eq s.workingDirectory hallowed.short
  refine ⟨middle, t, id, directory.join (Path.ofText call.name), ?_, htext, hensured, hstored⟩
  unfold create
  rw [hprepared]
  simp only [writeAfresh, htext, hnul, hwritten, hopened, Bool.false_eq_true, if_false]

section AfterOne

variable {middle t : Tree} {id : NodeId} (hensured : s.tree.Ensured middle (below place))
  (hstored : middle.Stored t (below place ++ [call.name]) call.content id)

include hensured hstored

/-- All that was there is kept. -/
theorem extended_made : s.tree.Extends t :=
  hensured.extended.trans hstored.extended

/-- **The conditions last.** Another scratch file can be made afterwards. -/
theorem Ready.made (h : Ready s place) : Ready { s with tree := t } place where
  wellFormed := hstored.wellFormed
  here := (extended_made hensured hstored).descend_of h.here
  stands := (extended_made hensured hstored).at?_of_directory h.stands
  free := fun names hnames => by
    right
    refine hstored.extended.at?_of_directory ?_
    have hfront : place ++ names <+: below place := (List.prefix_append_right_inj place).mpr hnames
    rw [hensured.at?_eq, withDirectories, if_pos hfront]

/-- Where a file could be made before, one can be made afterwards. -/
theorem Allowed.made {name : String} (hallowed : Allowed s place name) :
    Allowed { s with tree := t } place name where
  isName := hallowed.isName
  short := hallowed.short
  vacant := by
    unfold files
    rw [hstored.at?_eq]
    split
    · exact Or.inr ⟨call.content, rfl⟩
    · rw [hensured.at?_eq, withDirectories, if_neg (not_prefix_below place name)]
      exact hallowed.vacant

variable (hsole : s.tree.Sole (below place ++ [call.name]))

include hsole

/-- A file with no other name is the only change beside the directories on the way. -/
theorem at?_made : t.at? = written place s.tree.at? call := by
  rw [hstored.at?_eq_update hensured.wellFormed (hensured.sole hsole), hensured.at?_eq]
  rfl

end AfterOne

/-! ## Scratch files one after the other -/

/-- What a scratch file answers when it has been made, in a tree that comes afterwards: its node,
and a report about its path. -/
def Answered (place : List String) (after : Tree) (call : Call)
    (result : Except Failure (NodeId × Note)) : Prop :=
  ∃ id path, result = .ok (id, .wrote call.content.length path) ∧
    path.toText = Path.rooted (below place ++ [call.name]) ∧
    after.descend (below place ++ [call.name]) = some id

/-- **A run.** Every scratch file is made, and all that was there is kept. -/
theorem createAll_ok (h : Ready s place) (calls : List Call)
    (hcalls : ∀ call ∈ calls, Allowed s place call.name) :
    List.Forall₂ (Answered place (createAll s calls).1.tree) calls (createAll s calls).2 ∧
      s.tree.Extends (createAll s calls).1.tree := by
  induction calls generalizing s with
  | nil => exact ⟨.nil, .refl _⟩
  | cons call rest ih =>
    obtain ⟨middle, t, id, path, hcreated, htext, hensured, hstored⟩ :=
      create_ok h (hcalls call List.mem_cons_self)
    obtain ⟨hanswers, hextended⟩ := ih (h.made hensured hstored) fun later hlater =>
      (hcalls later (List.mem_cons_of_mem _ hlater)).made hensured hstored
    rw [createAll_cons hcreated]
    exact ⟨.cons ⟨id, path, rfl, htext, hextended.descend_of hstored.descend_eq⟩ hanswers,
      (extended_made hensured hstored).trans hextended⟩

/-- What is shown after a run is what is shown after one of the files, for all in order. -/
theorem at?_createAll (h : Ready s place) (calls : List Call)
    (hcalls : ∀ call ∈ calls, Allowed s place call.name)
    (hsole : ∀ call ∈ calls, s.tree.Sole (below place ++ [call.name])) :
    (createAll s calls).1.tree.at? = calls.foldl (written place) s.tree.at? := by
  induction calls generalizing s with
  | nil => rfl
  | cons call rest ih =>
    obtain ⟨middle, t, id, path, hcreated, _, hensured, hstored⟩ :=
      create_ok h (hcalls call List.mem_cons_self)
    have hshown := ih (h.made hensured hstored)
      (fun later hlater => (hcalls later (List.mem_cons_of_mem _ hlater)).made hensured hstored)
      fun later hlater => hstored.sole hensured.wellFormed
        (hensured.sole (hsole later (List.mem_cons_of_mem _ hlater)))
    rw [createAll_cons hcreated, hshown,
      at?_made hensured hstored (hsole call List.mem_cons_self), List.foldl_cons]

/-- **The directory of scratch files is a map.** Every scratch file is made. If no file that is
there under one of the names is under another name as well, then the map is afterwards the one
before with the names set in order, so that a name has what it was set to last and one that was not
set is as it was; and nothing else has changed, except that the directories on the way are there.
Two neighbours with different names can be exchanged, and of two with one name the first can be
left out. -/
theorem createAll_eq_map (h : Ready s place) (calls : List Call)
    (hcalls : ∀ call ∈ calls, Allowed s place call.name) :
    List.Forall₂ (Answered place (createAll s calls).1.tree) calls (createAll s calls).2 ∧
    ((∀ call ∈ calls, s.tree.Sole (below place ++ [call.name])) →
      files place (createAll s calls).1.tree.at? =
        calls.foldl setFile (files place s.tree.at?) ∧
      (∀ (front : List Call) (call : Call) (back : List Call), calls = front ++ call :: back →
        (∀ later ∈ back, later.name ≠ call.name) →
        files place (createAll s calls).1.tree.at? call.name = some (.file call.content)) ∧
      (∀ name, (∀ call ∈ calls, call.name ≠ name) →
        files place (createAll s calls).1.tree.at? name = files place s.tree.at? name) ∧
      (∀ other, (∀ name, other ≠ below place ++ [name]) →
        (createAll s calls).1.tree.at? other =
          if calls ≠ [] ∧ other <+: below place then some .directory else s.tree.at? other) ∧
      (∀ (front : List Call) (first second : Call) (back : List Call),
        calls = front ++ first :: second :: back →
        (first.name ≠ second.name →
          (createAll s (front ++ second :: first :: back)).1.tree.at? =
            (createAll s calls).1.tree.at?) ∧
        (first.name = second.name →
          (createAll s (front ++ second :: back)).1.tree.at? =
            (createAll s calls).1.tree.at?))) := by
  refine ⟨(createAll_ok h calls hcalls).1, fun hsole => ?_⟩
  have hfiles := @files_foldl_written place s.tree.at? calls
  -- The same holds for a run of some of the calls, in any order.
  have hshown (some : List Call) (hsome : some ⊆ calls) :=
    at?_createAll h some (fun call hcall => hcalls call (hsome hcall)) fun call hcall =>
      hsole call (hsome hcall)
  rw [hshown calls (List.Subset.refl calls)]
  refine ⟨hfiles, ?_, ?_, ?_, ?_⟩
  · rintro front call back rfl hback
    rw [hfiles, foldl_setFile_of_last hback]
  · intro name hname
    rw [hfiles, foldl_setFile_of_forall_ne hname]
  · intro other hother
    exact foldl_written_of_ne _ hother calls
  · rintro front first second back rfl
    constructor
    · intro hname
      rw [hshown (front ++ second :: first :: back) fun call hcall => by
        simp only [List.mem_append, List.mem_cons] at hcall ⊢
        tauto]
      simp only [List.foldl_append, List.foldl_cons]
      rw [written_comm _ hname]
    · intro hname
      rw [hshown (front ++ second :: back) fun call hcall => by
        simp only [List.mem_append, List.mem_cons] at hcall ⊢
        tauto]
      simp only [List.foldl_append, List.foldl_cons]
      rw [written_absorb _ hname]

/-- A tree with the directory of scratch files, and nothing in it. -/
def noFiles : Tree :=
  (((Tree.empty.addNode root "w" (.directory { parent := root })).addNode 1 "target"
    (.directory { parent := 1 })).addNode 2 "debug" (.directory { parent := 2 })).addNode 3
    "testdata" (.directory { parent := 3 })

/-- The tree is well-formed. -/
theorem wellFormed_noFiles : noFiles.WellFormed := by
  dsimp only [noFiles]
  refine WellFormed.addNode ?_ rfl (by decide) .directory
  refine WellFormed.addNode ?_ rfl (by decide) .directory
  refine WellFormed.addNode ?_ rfl (by decide) .directory
  exact wellFormed_empty.addNode rfl (by decide) .directory

/-- The tree with one scratch file. -/
def oneFile : Tree :=
  noFiles.addNode 4 "a" (.file ⟨[.written [9, 9, 9]]⟩)

/-- The scratch file has been put into the directory that was there. -/
theorem stored_oneFile : noFiles.Stored oneFile (below ["w"] ++ ["a"]) [9, 9, 9] 5 :=
  wellFormed_noFiles.stored_addNode rfl rfl (by decide) rfl _

/-- Surroundings in which there are two scratch files already. -/
def twoFiles : Surroundings where
  tree := oneFile.addNode 4 "b" (.file ⟨[.written [7]]⟩)
  workingDirectory := 1
  projectRoot := Path.ofText "/w"

/-- There are two scratch files, and the first of them is written twice, with another one between:
it has what was written last, and the second one is as it was. -/
theorem createAll_eq_map_of_twoFiles :
    Ready twoFiles ["w"] ∧ Allowed twoFiles ["w"] "a" ∧ Allowed twoFiles ["w"] "c" ∧
      twoFiles.tree.Sole (below ["w"] ++ ["a"]) ∧ twoFiles.tree.Sole (below ["w"] ++ ["c"]) ∧
      let shown := files ["w"]
        (createAll twoFiles [⟨"a", [1, 2]⟩, ⟨"c", []⟩, ⟨"a", [3]⟩]).1.tree.at?
      shown "a" = some (.file [3]) ∧ shown "b" = some (.file [7]) ∧ shown "c" = some (.file []) := by
  have hsecond : oneFile.Stored twoFiles.tree (below ["w"] ++ ["b"]) [7] 6 := by
    dsimp only [twoFiles]
    exact stored_oneFile.wellFormed.stored_addNode rfl rfl (by decide) rfl _
  have hready : Ready twoFiles ["w"] := .of_directory hsecond.wellFormed rfl rfl
  have ha : Allowed twoFiles ["w"] "a" := ⟨by decide, by decide, Or.inr ⟨_, rfl⟩⟩
  have hc : Allowed twoFiles ["w"] "c" := ⟨by decide, by decide, Or.inl rfl⟩
  have hsole : twoFiles.tree.Sole (below ["w"] ++ ["a"]) :=
    hsecond.sole stored_oneFile.wellFormed
      (stored_oneFile.sole wellFormed_noFiles (sole_of_descend_eq_none rfl))
  have hsole' : twoFiles.tree.Sole (below ["w"] ++ ["c"]) := sole_of_descend_eq_none rfl
  obtain ⟨_, hmap⟩ := createAll_eq_map hready
    [⟨"a", [1, 2]⟩, ⟨"c", []⟩, ⟨"a", [3]⟩] (by simp [ha, hc])
  obtain ⟨_, hlast, hkept, _⟩ := hmap (by simp [hsole, hsole'])
  refine ⟨hready, ha, hc, hsole, hsole', ?_, ?_, ?_⟩
  · exact hlast [⟨"a", [1, 2]⟩, ⟨"c", []⟩] ⟨"a", [3]⟩ [] rfl (by simp)
  · exact hkept "b" (by decide)
  · exact hlast [⟨"a", [1, 2]⟩] ⟨"c", []⟩ [⟨"a", [3]⟩] rfl (by decide)

/-- Surroundings in which there is one scratch file with two names, and a link to it. -/
def twoNames : Surroundings where
  tree := (oneFile.addEntry 4 "b" 5).addNode 4 "l" (.link "a")
  workingDirectory := 1
  projectRoot := Path.ofText "/w"

/-- Where a scratch file has a second name, which is not asked for, what is written under the first
is shown under the second. What is read through a link changes too. And if both names are asked for,
it makes a difference in which order. -/
theorem createAll_ne_map_of_twoNames :
    Ready twoNames ["w"] ∧ Allowed twoNames ["w"] "a" ∧ Allowed twoNames ["w"] "b" ∧
      files ["w"] twoNames.tree.at? "b" = some (.file [9, 9, 9]) ∧
      files ["w"] (createAll twoNames [⟨"a", [1]⟩]).1.tree.at? "b" = some (.file [1]) ∧
      twoNames.tree.fileContent 1 "target/debug/testdata/l" = .ok [9, 9, 9] ∧
      (createAll twoNames [⟨"a", [1]⟩]).1.tree.fileContent 1 "target/debug/testdata/l" = .ok [1] ∧
      files ["w"] (createAll twoNames [⟨"a", [1]⟩, ⟨"b", [2]⟩]).1.tree.at? "a" =
        some (.file [2]) ∧
      files ["w"] (createAll twoNames [⟨"b", [2]⟩, ⟨"a", [1]⟩]).1.tree.at? "a" =
        some (.file [1]) := by
  have hwf : twoNames.tree.WellFormed := by
    dsimp only [twoNames]
    refine WellFormed.addNode ?_ rfl (by decide) (.link (by decide))
    refine stored_oneFile.wellFormed.addEntry rfl (by decide) (by decide) ?_
    -- The node that gets the name is a file.
    intro found hfound
    cases hfound
  have ha : Allowed twoNames ["w"] "a" := ⟨by decide, by decide, Or.inr ⟨_, rfl⟩⟩
  have hb : Allowed twoNames ["w"] "b" := ⟨by decide, by decide, Or.inr ⟨_, rfl⟩⟩
  refine ⟨.of_directory hwf rfl rfl, ha, hb, ?_⟩
  decide +kernel

end Fixtures.Scratch
