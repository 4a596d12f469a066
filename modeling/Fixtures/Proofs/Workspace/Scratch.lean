import Fixtures.Proofs.Handle
import Fixtures.Proofs.Text.Hex
import Fixtures.Proofs.Tree.Provision
import Fixtures.Proofs.Tree.Replacement
import Fixtures.Proofs.Workspace

/-!
# What a scratch file leaves behind

A scratch file that is answered holds what was given, is read from its first byte on, and is the
only file that has changed. Beside it only the directories on the way to it are new. One that is
refused leaves the tree as it was, or with these directories and nothing else; and a file that could
be written is never refused afterwards.
-/

namespace Fixtures

namespace Scratch

open Fixtures.Tree

variable {s : Surroundings} {t : Tree} {here : NodeId} {path : Path} {content : List UInt8}
  {name : String}

/-- The path of the scratch file of a name, where names lead from the root to the directory that the
fixtures stand in. -/
def pathFor (base : List String) (name : String) : Path :=
  (directoryBelow (Path.ofText (Path.rooted base))).join (Path.ofText name)

/-- What a scratch file leaves behind in a tree. -/
structure Made (before after : Tree) (here : NodeId) (base : List String) (path : Path)
    (content : List UInt8) (id : NodeId) : Prop where
  /-- The tree is sound. -/
  sound : after.Sound
  /-- The path leads to the file. -/
  lookUp_eq : after.lookUp here path.toText = .ok id
  /-- The file holds the content, and nothing else. -/
  fileContent_eq : after.fileContent here path.toText = .ok content
  /-- The directories on the way are there, and those that were missing have been made. The file has
  a place, at which there was nothing or a file, and beside it those that it had before. It is shown
  at all of them, and nothing else is shown than before. -/
  shown : ∃ places place,
    List.Forall₂ (fun names place => ∃ node, Provided before after here names place node)
      (levels base Settings.scratchNames) places ∧
    (before.at? place = none ∨ ∃ old, before.at? place = some (.file old)) ∧
    (∀ names, after.descend names = some id ↔ names = place ∨ before.descend names = some id) ∧
    ∀ names, after.at? names =
      if after.descend names = some id then some (.file content)
      else withPlaces places before.at? names
  /-- Every directory is where it was with the entries that it had, and what it has beside these is
  new. -/
  extended : before.Extends after
  /-- All nodes are where they were. -/
  descend_of : ∀ names node, before.descend names = some node → after.descend names = some node
  /-- No other file has been made or has changed, also of those that have no place. -/
  content?_eq : ∀ other, other ≠ id → after.content? other = before.content? other
  /-- No link has been made or has changed, also of those that have no place. -/
  target?_eq : ∀ other, after.target? other = before.target? other

/-! ## The directories -/

/-- The fixtures stand nowhere, or at the end of names from the root. -/
theorem directory_cases (h : s.tree.WellFormed) :
    (∃ failure, directory s = .error failure) ∨
    ∃ base, s.tree.pathOf s.workingDirectory = .ok (Path.rooted base) ∧
      s.tree.descend base = some s.workingDirectory ∧ s.tree.at? base = some .directory ∧
      directory s = .ok (directoryBelow (Path.ofText (Path.rooted base))) := by
  unfold directory
  cases hpath : s.tree.pathOf s.workingDirectory with
  | error fault => exact Or.inl ⟨_, rfl⟩
  | ok text =>
    obtain ⟨base, hbase, hshown, rfl⟩ := h.pathOf_eq_ok_iff.mp hpath
    exact Or.inr ⟨base, rfl, hbase, hshown, rfl⟩

/-- **The directories, all or none.** The directories on the way to scratch files are there, or the
tree is as it was. -/
theorem prepare_cases (h : s.tree.Sound) :
    (∃ failure, prepare s = (s.tree, .error failure)) ∨
    ∃ base t places, s.tree.pathOf s.workingDirectory = .ok (Path.rooted base) ∧
      s.tree.descend base = some s.workingDirectory ∧
      prepare s = (t, .ok (directoryBelow (Path.ofText (Path.rooted base)))) ∧
      s.tree.Furnished t s.workingDirectory (levels base Settings.scratchNames) places := by
  unfold prepare
  rcases directory_cases h.toWellFormed with
    ⟨failure, hnowhere⟩ | ⟨base, hpath, hbase, hshown, hdir⟩
  · rw [hnowhere]
    exact Or.inl ⟨failure, rfl⟩
  · rw [hdir]
    have hbaseNames := h.isName_of_descend hbase
    obtain ⟨hanchor, hparts⟩ :=
      directoryBelow_rooted fun part hpart => (hbaseNames part hpart).isPart
    have hnames : ∀ name ∈ base ++ Settings.scratchNames, IsName name :=
      List.forall_mem_append.mpr ⟨hbaseNames, isName_of_mem_scratchNames⟩
    rcases h.ensure_cases s.workingDirectory hanchor hshown hnames hparts with
      ⟨t, hmade, hprovides, hlength⟩ | ⟨⟨fault, path⟩, hrefused⟩
    · rw [Path.toText_of_root hanchor, hparts] at hlength
      obtain ⟨⟨places, hfurnished⟩, _⟩ :=
        hprovides.furnished s.workingDirectory hnames hlength h
      right
      refine ⟨base, t, places, hpath, hbase, ?_, hfurnished⟩
      simp only [hmade]
    · left
      simp only [hrefused]
      exact ⟨_, rfl⟩

/-! ## The file -/

/-- Why a file is not opened for writing. -/
def RefusesToOpen (t : Tree) (here : NodeId) (path : Path) (failure : Failure) : Prop :=
  '\x00' ∈ path.toText.toList ∧ failure = .nulInPath ∨
    ∃ fault, t.openEmpty here path.toText = .error fault ∧ failure = .system fault (some path)

/-- **The second time a file is opened.** A file is written and can be opened, or it was not opened
for writing, and then the tree is as it was. -/
theorem writeAfresh_cases (h : t.Sound) (hhere : t.Placed here) (path : Path)
    (content : List UInt8) :
    (∃ failure, writeAfresh t here path content = (t, .error failure) ∧
      RefusesToOpen t here path failure) ∨
    ∃ t' id place, writeAfresh t here path content = (t', .ok id) ∧
      t.Replaced t' place content id ∧ t'.lookUp here path.toText = .ok id := by
  unfold writeAfresh
  by_cases hnul : '\x00' ∈ path.toText.toList
  · rw [if_pos (by simpa using hnul)]
    exact Or.inl ⟨_, rfl, Or.inl ⟨hnul, rfl⟩⟩
  · rw [if_neg (by simpa using hnul)]
    cases hwritten : t.writeFile here path.toText content with
    | error fault =>
      have hopened : t.openEmpty here path.toText = .error fault := by
        unfold writeFile at hwritten
        cases hopened : t.openEmpty here path.toText with
        | error other =>
          rw [hopened] at hwritten
          exact hwritten
        | ok opened =>
          rw [hopened] at hwritten
          cases hwritten
      exact Or.inl ⟨_, rfl, Or.inr ⟨fault, hopened, rfl⟩⟩
    | ok written =>
      obtain ⟨t', id⟩ := written
      obtain ⟨⟨place, hreplaced⟩, hlookUp⟩ := h.writeFile_replaced hhere hnul hwritten
      have hopened := h.openFile_of_writeFile hhere hnul hwritten
      right
      simp only [hopened]
      exact ⟨t', id, place, rfl, hreplaced, hlookUp⟩

/-- A directory that has been provided stays so when a file is written. -/
theorem provided_of_replaced {before middle after : Tree} {names place file : List String}
    {id node : NodeId} (h : Provided before middle here names place node)
    (hreplaced : middle.Replaced after file content id) :
    Provided before after here names place node where
  lookUp_eq := lookUp_of_courses hreplaced.course_of h.lookUp_eq
  descend_eq := hreplaced.extended.descend_of h.descend_eq
  shown := hreplaced.extended.at?_of_directory h.shown
  before_cases := h.before_cases

/-- What is left behind by a file that is written when the directories are there. -/
theorem made_of_replaced {before middle after : Tree} {base place : List String}
    {places : List (List String)} {id : NodeId}
    (hfurnished : before.Furnished middle here (levels base Settings.scratchNames) places)
    (hreplaced : middle.Replaced after place content id)
    (hlookUp : after.lookUp here path.toText = .ok id) :
    Made before after here base path content id where
  sound := hreplaced.sound
  lookUp_eq := hlookUp
  fileContent_eq := by
    obtain ⟨kept, hkept, hcontent⟩ := hreplaced.exists_content
    unfold fileContent openFile
    rw [hlookUp]
    simp only [bind, Except.bind, hkept, Option.getD_some, hcontent]
  shown := by
    refine ⟨places, place, hfurnished.provided.imp ?_, ?_, fun names => ?_, fun names => ?_⟩
    · rintro names other ⟨node, hprovided⟩
      exact ⟨node, provided_of_replaced hprovided hreplaced⟩
    · -- The file is at none of the places of the directories, so what was there was there before.
      rw [hfurnished.at?_of_ne_directory fun hshown => hreplaced.place_ne hshown rfl]
      exact hreplaced.place_cases
    · rw [hreplaced.descend_iff, hfurnished.descend_eq_some_iff hreplaced.directory?_eq_none]
    · rw [hreplaced.at?_eq, hfurnished.at?_eq]
  extended := hfurnished.extended.trans hreplaced.extended
  descend_of := fun _ _ hnode =>
    (hfurnished.extended.trans hreplaced.extended).descend_of hnode
  content?_eq := fun other hother => by
    rw [hreplaced.content?_eq other hother, hfurnished.content?_eq]
  target?_eq := fun other => by rw [hreplaced.target?_eq, hfurnished.target?_eq]

/-- What is read at the start of the file is its content. -/
theorem Made.standsBefore {before after : Tree} {base : List String} {id : NodeId}
    (h : Made before after here base path content id) :
    ({ file := id } : Handle).StandsBefore after content where
  isOpen_eq := rfl
  left_eq := by
    have hread := h.fileContent_eq
    unfold fileContent at hread
    obtain ⟨found, hopened, hread⟩ := exists_ok_of_bind hread
    obtain rfl : id = found := by
      unfold openFile at hopened
      rw [h.lookUp_eq] at hopened
      obtain ⟨_, hid, hfile⟩ := exists_ok_of_bind hopened
      cases hid
      split at hfile
      · exact Except.ok.inj hfile
      · cases hfile
    exact Except.ok.inj hread

/-- What a scratch file that is refused leaves behind. -/
inductive Refused (s : Surroundings) (name : String) : Tree → Failure → Prop where
  /-- The fixtures stand nowhere, or a directory on the way is refused: the tree is as it was. -/
  | directories {failure : Failure} (hprepared : prepare s = (s.tree, .error failure)) :
      Refused s name s.tree failure
  /-- The file is not opened for writing: the directories on the way are all there, and nothing else
  has changed. -/
  | file {base : List String} {t : Tree} {places : List (List String)} {failure : Failure}
      (hpath : s.tree.pathOf s.workingDirectory = .ok (Path.rooted base))
      (hprepared : prepare s = (t, .ok (directoryBelow (Path.ofText (Path.rooted base)))))
      (hfurnished : s.tree.Furnished t s.workingDirectory (levels base Settings.scratchNames) places)
      (hrefuses : RefusesToOpen t s.workingDirectory (pathFor base name) failure) :
      Refused s name t failure

/-- **What becomes of a scratch file.** It is refused, or it is made. -/
theorem create_cases (h : s.tree.Sound) (name : String) (content : List UInt8) :
    (∃ t failure, create s name content = (t, .error failure) ∧ Refused s name t failure) ∨
    ∃ base t id, s.tree.pathOf s.workingDirectory = .ok (Path.rooted base) ∧
      create s name content = (t, .ok (id, .wrote content.length (pathFor base name))) ∧
      Made s.tree t s.workingDirectory base (pathFor base name) content id := by
  rcases prepare_cases h with ⟨failure, hprepared⟩ |
    ⟨base, t, places, hpath, hbase, hprepared, hfurnished⟩
  · refine Or.inl ⟨s.tree, failure, ?_, .directories hprepared⟩
    unfold create
    rw [hprepared]
  · have hhere : t.Placed s.workingDirectory := ⟨base, hfurnished.extended.descend_of hbase⟩
    rcases writeAfresh_cases hfurnished.sound hhere (pathFor base name) content with
      ⟨failure, hwritten, hrefuses⟩ | ⟨t', id, place, hwritten, hreplaced, hlookUp⟩
    · refine Or.inl ⟨t, failure, ?_, .file hpath hprepared hfurnished hrefuses⟩
      unfold pathFor at hwritten
      simp only [create, hprepared, hwritten]
    · refine Or.inr ⟨base, t', id, hpath, ?_, made_of_replaced hfurnished hreplaced hlookUp⟩
      unfold pathFor at hwritten
      simp only [create, hprepared, hwritten, pathFor]

end Scratch

namespace Workspace

open Fixtures.Tree

variable {w : Workspace} {fileName handle : String} {content : Content} {bytes : List UInt8}

/-! ## Reading from a handle -/

/-- The outcome of a read. -/
def readOutcome (answer : Except Handle.Failure (List UInt8)) : Outcome :=
  .silent ((answer.mapError .handle).map .bytes)

/-- **Reads from a handle.** Reads one after the other are served from the bytes that are left
behind the offset of the handle. -/
theorem run_reads [Machine] {h : Handle} {left : List UInt8}
    (hhandle : w.handles.find? handle = some h) (hstands : h.StandsBefore w.tree left)
    (counts : List Int) :
    ∃ answers behind, (w.run (counts.map (Request.read handle))).2 = answers.map readOutcome ∧
      Handle.Serves left counts answers behind := by
  induction counts generalizing w h left with
  | nil => exact ⟨[], left, rfl, .done⟩
  | cons count counts ih =>
    rw [List.map_cons, run]
    rcases Handle.read_cases hstands count with
      ⟨wanted, after, hasks, hroom, hread, hafter⟩ | ⟨hrefuses, failure, hread⟩
    · have hperform : w.perform (.read handle count) =
          ({ w with handles := w.handles.insert handle after },
            readOutcome (.ok (left.take wanted))) := by
        simp only [perform, withHandle, hhandle, hread]
        rfl
      obtain ⟨answers, behind, hrun, hserves⟩ :=
        @ih { w with handles := w.handles.insert handle after } after _
          (Registry.find?_insert_self _ _ _) hafter
      rw [hperform]
      exact ⟨_ :: answers, behind, congrArg _ hrun, .served hasks hroom hserves⟩
    · have hperform : w.perform (.read handle count) = (w, readOutcome (.error failure)) := by
        simp only [perform, withHandle, hhandle, hread]
        rfl
      obtain ⟨answers, behind, hrun, hserves⟩ := ih hhandle hstands
      rw [hperform]
      exact ⟨_ :: answers, behind, congrArg _ hrun, .refused hrefuses hserves⟩

/-! ## Scratch files -/

/-- There is a content for all bytes. -/
theorem exists_content (bytes : List UInt8) : ∃ content : Content, content.get = .ok bytes := by
  refine ⟨.hex (String.ofList (Text.hexOfBytes bytes)), ?_⟩
  rw [Content.get, String.toList_ofList, Text.bytesOfHex_hexOfBytes]
  rfl

/-- What a request for a scratch file does, by what becomes of the file. -/
theorem perform_scratch [Machine] (hcontent : content.get = .ok bytes) :
    w.perform (.scratch fileName content handle) =
      match Scratch.create w.toSurroundings fileName bytes with
      | (tree, .error failure) => ({ w with tree := tree }, .silent (.error (.scratch failure)))
      | (tree, .ok (file, note)) =>
        ({ w with tree := tree, handles := w.handles.insert handle { file := file } },
          ⟨.ok (.opened { file := file }), [note]⟩) := by
  cases hcreated : Scratch.create w.toSurroundings fileName bytes with
  | mk tree result =>
    cases result with
    | error failure => simp only [perform, scratch, hcontent, hcreated]
    | ok made => simp only [perform, scratch, hcontent, hcreated]

/-- **A scratch file that is answered.** Its path leads to a file that holds exactly the content.
The handle is on that file, open and at its start, so that reads of any numbers of bytes hand out
the content piece by piece, with nothing skipped or handed out twice. One note says how many bytes
were written to the path. Of the tree nothing else has changed than that directories on the way that
were missing are there, and the file if it was missing; and nothing else of the workspace has. -/
theorem scratch_of_ok [Machine] (h : w.tree.Sound) (hcontent : content.get = .ok bytes)
    {answer : Answer}
    (hdone : (w.perform (.scratch fileName content handle)).2.answer = .ok answer) :
    ∃ base id after,
      w.tree.pathOf w.workingDirectory = .ok (Path.rooted base) ∧
      w.perform (.scratch fileName content handle) =
        ({ w with tree := after, handles := w.handles.insert handle { file := id } },
          ⟨.ok (.opened { file := id }), [.wrote bytes.length (Scratch.pathFor base fileName)]⟩) ∧
      Scratch.Made w.tree after w.workingDirectory base (Scratch.pathFor base fileName) bytes id ∧
      ∀ counts : List Int, ∃ answers behind,
        ((w.perform (.scratch fileName content handle)).1.run
          (counts.map (Request.read handle))).2 = answers.map readOutcome ∧
        Handle.Serves bytes counts answers behind ∧
        Handle.handedOut answers ++ behind = bytes := by
  rw [perform_scratch hcontent] at hdone ⊢
  rcases Scratch.create_cases h fileName bytes with
    ⟨t, failure, hcreated, _⟩ | ⟨base, after, id, hpath, hcreated, hmade⟩
  · rw [hcreated] at hdone
    cases hdone
  · rw [hcreated]
    refine ⟨base, id, after, hpath, rfl, hmade, fun counts => ?_⟩
    obtain ⟨answers, behind, hrun, hserves⟩ :=
      run_reads (w := { w with tree := after, handles := w.handles.insert handle { file := id } })
        (Registry.find?_insert_self _ _ _) hmade.standsBefore counts
    exact ⟨answers, behind, hrun, hserves, hserves.handedOut_append⟩

/-- A workspace whose directory has a link to another directory under the first name on the way to
scratch files. -/
def throughLink : Workspace where
  tree := (((Tree.empty.addNode root "w" (.directory { parent := root })).addNode root "e"
    (.directory { parent := root })).addNode 1 "target" (.link "../e"))
  workingDirectory := 1
  projectRoot := Path.ofText "/w"

/-- The tree of the workspace is sound. -/
theorem sound_throughLink : throughLink.tree.Sound := by
  dsimp only [throughLink]
  refine Sound.addNode rfl ?_ (by decide) (.link (by decide))
  refine Sound.addNode rfl ?_ (by decide) .directory
  exact Sound.addNode rfl sound_empty (by decide) .directory

/-- A result that is there is an answer. -/
theorem exists_ok_of_isSome {ε α : Type} {result : Except ε α}
    (h : result.toOption.isSome = true) : ∃ a, result = .ok a := by
  cases result with
  | error failure => cases h
  | ok a => exact ⟨a, rfl⟩

/-- A tree goes with the answer that there is. -/
theorem eq_mk_ok_of_toOption {ε α : Type} {made : Tree × Except ε α} {a : α}
    (h : made.2.toOption = some a) : made = (made.1, .ok a) := by
  obtain ⟨t, result⟩ := made
  cases result with
  | error failure => cases h
  | ok b => exact congrArg (fun a => (t, Except.ok a)) (Option.some.inj h)

/-- A result that is not there is a failure. -/
theorem exists_error_of_isSome {ε α : Type} {result : Except ε α}
    (h : result.toOption.isSome = false) : ∃ failure, result = .error failure := by
  cases result with
  | error failure => exact ⟨failure, rfl⟩
  | ok a => cases h

/-- A scratch file whose name goes up from the directory of scratch files, which is behind a link:
the file is in the directory above, two bytes are written, and three reads are served from them. -/
theorem scratch_of_ok_through_link :
    throughLink.tree.Sound ∧ (Content.hex "0102").get = .ok [1, 2] ∧
    (∃ answer, (throughLink.perform (.scratch "../a" (.hex "0102") "h")).2.answer = .ok answer) ∧
    (throughLink.perform (.scratch "../a" (.hex "0102") "h")).1.tree.at? ["e", "debug", "a"] =
      some (.file [1, 2]) ∧
    ∃ base id after, throughLink.tree.pathOf 1 = .ok (Path.rooted base) ∧
      (throughLink.perform (.scratch "../a" (.hex "0102") "h")).2.notes =
        [.wrote 2 (Scratch.pathFor base "../a")] ∧
      Scratch.Made throughLink.tree after 1 base (Scratch.pathFor base "../a") [1, 2] id ∧
      ∃ answers behind, Handle.Serves [1, 2] [1, -1, -2] answers behind := by
  have hcontent : (Content.hex "0102").get = .ok [1, 2] := rfl
  obtain ⟨answer, hanswer⟩ : ∃ answer,
      (throughLink.perform (.scratch "../a" (.hex "0102") "h")).2.answer = .ok answer :=
    exists_ok_of_isSome (by decide +kernel)
  obtain ⟨base, id, after, hpath, hperform, hmade, hreads⟩ :=
    scratch_of_ok sound_throughLink hcontent hanswer
  obtain ⟨answers, behind, _, hserves, _⟩ := hreads [1, -1, -2]
  refine ⟨sound_throughLink, hcontent, ⟨answer, hanswer⟩, by decide +kernel, base, id, after, hpath,
    ?_, hmade, answers, behind, hserves⟩
  rw [hperform]
  rfl

/-- **A scratch file that is refused.** No note is written, and nothing of the workspace has changed
but the tree. Where the fixtures stand nowhere or a directory on the way is refused the tree is as
it was; otherwise the directories on the way are all there, those that were missing have been made,
no file and no link has been made or has changed, and it is the first opening of the file that was
refused. A file that has been written is never refused when it is opened again. -/
theorem scratch_of_error [Machine] (h : w.tree.Sound) (hcontent : content.get = .ok bytes) :
    (∀ failure, (w.perform (.scratch fileName content handle)).2.answer = .error failure →
      ∃ after refusal,
        w.perform (.scratch fileName content handle) =
          ({ w with tree := after }, ⟨.error (.scratch refusal), []⟩) ∧
        Scratch.Refused w.toSurroundings fileName after refusal) ∧
    ∀ base t t' id,
      Scratch.prepare w.toSurroundings =
        (t, .ok (Scratch.directoryBelow (Path.ofText (Path.rooted base)))) →
      '\x00' ∉ (Scratch.pathFor base fileName).toText.toList →
      t.writeFile w.workingDirectory (Scratch.pathFor base fileName).toText bytes = .ok (t', id) →
      t'.openFile w.workingDirectory (Scratch.pathFor base fileName).toText = .ok id := by
  constructor
  · intro failure hfailed
    rw [perform_scratch hcontent] at hfailed ⊢
    rcases Scratch.create_cases h fileName bytes with
      ⟨t, refusal, hcreated, hrefused⟩ | ⟨base, after, id, _, hcreated, _⟩
    · rw [hcreated]
      exact ⟨t, refusal, rfl, hrefused⟩
    · rw [hcreated] at hfailed
      cases hfailed
  · intro base t t' id hprepared hnul hwritten
    rcases Scratch.prepare_cases h with
      ⟨refusal, hrefused⟩ | ⟨base', t'', places, _, hbase, hprepared', hfurnished⟩
    · rw [hprepared] at hrefused
      cases hrefused
    · obtain rfl : t = t'' := congrArg Prod.fst (hprepared.symm.trans hprepared')
      have hhere : t.Placed w.workingDirectory := ⟨base', hfurnished.extended.descend_of hbase⟩
      exact hfurnished.sound.openFile_of_writeFile hhere hnul hwritten

/-- In the workspace of the link a name that leads up to a directory is refused, with the
directories on the way made; and a file that is written at another name opens again. -/
theorem scratch_of_error_at_directory :
    throughLink.tree.Sound ∧ (Content.hex "0102").get = .ok [1, 2] ∧
    (∃ after refusal base places,
      throughLink.perform (.scratch ".." (.hex "0102") "h") =
        ({ throughLink with tree := after }, ⟨.error (.scratch refusal), []⟩) ∧
      throughLink.tree.Furnished after 1 (levels base Settings.scratchNames) places ∧
      Scratch.RefusesToOpen after 1 (Scratch.pathFor base "..") refusal) ∧
    ∃ t t' id, Scratch.prepare throughLink.toSurroundings =
        (t, .ok (Scratch.directoryBelow (Path.ofText (Path.rooted ["w"])))) ∧
      t.writeFile 1 (Scratch.pathFor ["w"] "../a").toText [1, 2] = .ok (t', id) ∧
      t'.openFile 1 (Scratch.pathFor ["w"] "../a").toText = .ok id := by
  have hcontent : (Content.hex "0102").get = .ok [1, 2] := rfl
  -- The tree is named by what is needed of it, so that nothing below computes it again.
  obtain ⟨t, hprepared, hwrites⟩ : ∃ t, Scratch.prepare throughLink.toSurroundings =
        (t, .ok (Scratch.directoryBelow (Path.ofText (Path.rooted ["w"])))) ∧
      (t.writeFile 1 (Scratch.pathFor ["w"] "../a").toText [1, 2]).toOption.isSome = true :=
    ⟨(Scratch.prepare throughLink.toSurroundings).1,
      eq_mk_ok_of_toOption (by decide +kernel), by decide +kernel⟩
  refine ⟨sound_throughLink, hcontent, ?_, ?_⟩
  · obtain ⟨failure, hfailed⟩ : ∃ failure,
        (throughLink.perform (.scratch ".." (.hex "0102") "h")).2.answer = .error failure :=
      exists_error_of_isSome (by decide +kernel)
    obtain ⟨after, refusal, hperform, hrefused⟩ :=
      (scratch_of_error sound_throughLink hcontent).1 failure hfailed
    refine ⟨after, refusal, ?_⟩
    cases hrefused with
    | directories hrefused =>
      rw [hprepared] at hrefused
      cases hrefused
    | @file base _ places _ _ _ hfurnished hrefuses =>
      exact ⟨base, places, hperform, hfurnished, hrefuses⟩
  · obtain ⟨⟨t', id⟩, hwritten⟩ := exists_ok_of_isSome hwrites
    have hnul : '\x00' ∉ (Scratch.pathFor ["w"] "../a").toText.toList := by decide +kernel
    exact ⟨t, t', id, hprepared, hwritten,
      (@scratch_of_error throughLink "../a" "h" _ _ _ sound_throughLink hcontent).2 ["w"] t t' id
        hprepared hnul hwritten⟩

end Workspace

end Fixtures
