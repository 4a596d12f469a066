import Fixtures.Proofs.Scratch
import Fixtures.Proofs.Tree.Above
import Fixtures.Proofs.Tree.Edit
import Fixtures.Workspace

/-!
# Workspaces keep their trees sound

Whatever steps are done in a workspace, its tree stays well-formed: every directory is in one place
only, and every name in the tree can be looked up. It stays sound too: no directory is moved, and
the root is above itself.
-/

namespace Fixtures

namespace Scratch

variable {s : Surroundings}

/-! ## What a scratch file does to the tree -/

/-- The tree behind the preparation is as it was, or as the directory of scratch files was made. -/
theorem prepare_tree_cases (s : Surroundings) :
    (prepare s).1 = s.tree ∨
      ∃ path, directory s = .ok path ∧
        (prepare s).1 = (s.tree.ensure s.workingDirectory path).1 := by
  unfold prepare
  cases hdirectory : directory s with
  | error failure => exact Or.inl rfl
  | ok path =>
    refine Or.inr ⟨path, rfl, ?_⟩
    dsimp only
    split
    · rename_i heq
      rw [heq]
    · rename_i heq
      rw [heq]

/-- The tree behind a file is as it was, or as the file was written. -/
theorem writeAfresh_tree_cases (t : Tree) (here : NodeId) (path : Path) (content : List UInt8) :
    (writeAfresh t here path content).1 = t ∨
      '\x00' ∉ path.toText.toList ∧
        ∃ id, t.writeFile here path.toText content =
          .ok ((writeAfresh t here path content).1, id) := by
  unfold writeAfresh
  split
  · exact Or.inl rfl
  · rename_i hnul
    split
    · exact Or.inl rfl
    · rename_i t' id hwritten
      refine Or.inr ⟨by simpa using hnul, id, ?_⟩
      rw [hwritten]
      split <;> rfl

/-- The tree behind a scratch file is that behind the preparation, with the file written or not. -/
theorem create_tree_cases (s : Surroundings) (name : String) (content : List UInt8) :
    (create s name content).1 = (prepare s).1 ∨
      ∃ path, (create s name content).1 =
        (writeAfresh (prepare s).1 s.workingDirectory path content).1 := by
  unfold create
  split
  · rename_i heq
    exact Or.inl (by rw [heq])
  · rename_i t directory heq
    refine Or.inr ⟨directory.join (Path.ofText name), ?_⟩
    rw [heq]
    dsimp only
    split
    · rename_i hwritten
      rw [hwritten]
    · rename_i hwritten
      rw [hwritten]

/-- The directory of scratch files has no NUL in its path. -/
theorem nul_not_mem_directory (h : s.tree.WellFormed) {path : Path}
    (hdirectory : directory s = .ok path) : ∀ part ∈ path.parts, '\x00' ∉ part.toList := by
  intro part hpart
  unfold directory at hdirectory
  split at hdirectory
  · rename_i text hpath
    obtain ⟨place, hplace, _, rfl⟩ := h.pathOf_eq_ok_iff.mp hpath
    have hnames := h.isName_of_descend hplace
    obtain ⟨_, hparts⟩ := directoryBelow_rooted fun part hpart => (hnames part hpart).isPart
    cases hdirectory
    rw [hparts] at hpart
    rcases List.mem_append.mp hpart with hfront | hlast
    · exact (hnames part hfront).nul_not_mem
    · exact (isName_of_mem_scratchNames part hlast).nul_not_mem
  · cases hdirectory

/-- Making the directory of scratch files keeps a tree well-formed. -/
theorem wellFormed_prepare (h : s.tree.WellFormed) : (prepare s).1.WellFormed := by
  rcases prepare_tree_cases s with hsame | ⟨path, hdirectory, hmade⟩
  · rwa [hsame]
  · rw [hmade]
    exact h.ensure s.workingDirectory (nul_not_mem_directory h hdirectory)

/-- Writing a file afresh keeps a tree well-formed. -/
theorem wellFormed_writeAfresh {t : Tree} (h : t.WellFormed) (here : NodeId) (path : Path)
    (content : List UInt8) : (writeAfresh t here path content).1.WellFormed := by
  rcases writeAfresh_tree_cases t here path content with hsame | ⟨hnul, id, hwritten⟩
  · rwa [hsame]
  · exact h.writeFile hnul hwritten

/-- Making a scratch file keeps a tree well-formed. -/
theorem wellFormed_create (h : s.tree.WellFormed) (name : String) (content : List UInt8) :
    (create s name content).1.WellFormed := by
  have hprepared := wellFormed_prepare h
  rcases create_tree_cases s name content with hsame | ⟨path, hwritten⟩
  · rwa [hsame]
  · rw [hwritten]
    exact wellFormed_writeAfresh hprepared ..

/-- Making the directory of scratch files moves no directory. -/
theorem keepsAbove_prepare (s : Surroundings) : s.tree.KeepsAbove (prepare s).1 := by
  rcases prepare_tree_cases s with hsame | ⟨path, _, hmade⟩
  · rw [hsame]
    exact .refl s.tree
  · rw [hmade]
    exact s.tree.keepsAbove_ensureWithin s.workingDirectory path.parts.length path

/-- Writing a file afresh moves no directory. -/
theorem keepsAbove_writeAfresh (t : Tree) (here : NodeId) (path : Path) (content : List UInt8) :
    t.KeepsAbove (writeAfresh t here path content).1 := by
  rcases writeAfresh_tree_cases t here path content with hsame | ⟨_, id, hwritten⟩
  · rw [hsame]
    exact .refl t
  · exact Tree.keepsAbove_writeFile hwritten

/-- Making a scratch file moves no directory. -/
theorem keepsAbove_create (s : Surroundings) (name : String) (content : List UInt8) :
    s.tree.KeepsAbove (create s name content).1 := by
  have hprepared := keepsAbove_prepare s
  rcases create_tree_cases s name content with hsame | ⟨path, hwritten⟩
  · rwa [hsame]
  · rw [hwritten]
    exact hprepared.trans (keepsAbove_writeAfresh ..)

end Scratch

namespace Workspace

variable {w : Workspace}

/-- A text without a NUL is let through. -/
theorem nul_not_mem_of_withoutNul {text : String} {done : Unit}
    (h : withoutNul text = .ok done) : '\x00' ∉ text.toList := by
  unfold withoutNul at h
  split at h
  · cases h
  · rename_i hnul
    simpa using hnul

/-- A request that is answered was made at a path without a NUL. -/
theorem of_request {α : Type} {path : String} {result : Except Tree.Fault α} {a : α}
    (h : request path result = .ok a) : '\x00' ∉ path.toList ∧ result = .ok a := by
  unfold request at h
  obtain ⟨_, hnul, hresult⟩ := Tree.exists_ok_of_bind h
  refine ⟨nul_not_mem_of_withoutNul hnul, ?_⟩
  cases result with
  | error fault => cases hresult
  | ok b => exact congrArg _ (Except.ok.inj hresult)

/-! ## What one step does to the tree -/

/-- What can become of the tree of a workspace in one step. -/
inductive Becomes (w : Workspace) : Tree → Prop where
  /-- It stays as it is. -/
  | same : Becomes w w.tree
  /-- Directories are made. -/
  | provided (path : String) : Becomes w (w.tree.provide w.workingDirectory path).1
  /-- A file is written. -/
  | written {path : String} {content : List UInt8} {t : Tree} {id : NodeId}
      (hnul : '\x00' ∉ path.toList)
      (hwritten : w.tree.writeFile w.workingDirectory path content = .ok (t, id)) : Becomes w t
  /-- A link is made. -/
  | linked {path target : String} {t : Tree} (hnul : '\x00' ∉ path.toList)
      (htarget : '\x00' ∉ target.toList)
      (hmade : w.tree.makeLink w.workingDirectory path target = .ok t) : Becomes w t
  /-- A name is taken out. -/
  | removed {path : String} (hnul : '\x00' ∉ path.toList) :
      Becomes w (w.tree.remove w.workingDirectory path).1
  /-- A scratch file is made. -/
  | scratched (name : String) (content : List UInt8) :
      Becomes w (Scratch.create w.toSurroundings name content).1
  /-- Bytes are written to a file. -/
  | overwritten (file : NodeId) (offset : Nat) (bytes : List UInt8) :
      Becomes w (w.tree.write file offset bytes)

/-- A change puts the tree that it answers with in the place of the tree. -/
theorem becomes_change {result : Except Failure Tree}
    (hresult : ∀ t, result = .ok t → w.Becomes t) : w.Becomes (w.change result).1.tree := by
  unfold change
  split
  · exact hresult _ rfl
  · exact .same

/-- The use of a handle puts the tree that it leaves in the place of the tree. -/
theorem becomes_withHandle (name : String)
    {use : Handle → Except Failure (Tree × Handle × Answer)}
    (huse : ∀ handle t handle' answer, use handle = .ok (t, handle', answer) → w.Becomes t) :
    w.Becomes (w.withHandle name use).1.tree := by
  unfold withHandle
  split
  · exact .same
  · split
    · exact .same
    · exact huse _ _ _ _ ‹_›

/-- What is written through a handle is written to its file. -/
theorem becomes_write {handle handle' : Handle} {t : Tree} {bytes : List UInt8} {written : Nat}
    (hwritten : handle.write w.tree bytes = .ok (t, handle', written)) : w.Becomes t := by
  unfold Handle.write at hwritten
  split at hwritten
  · cases hwritten
  · dsimp only at hwritten
    split at hwritten
    · cases hwritten
    · cases hwritten
      exact .overwritten ..

/-- **One step.** Each request does one of these things to the tree. -/
theorem becomes_perform [Machine] (w : Workspace) (request : Request) :
    w.Becomes (w.perform request).1.tree := by
  unfold perform
  cases request with
  | makeDirectory path => exact .provided path
  | writeFile path content =>
    refine becomes_change fun t hwritten => ?_
    obtain ⟨bytes, _, hwritten⟩ := Tree.exists_ok_of_bind hwritten
    obtain ⟨⟨t', id⟩, hrequest, hwritten⟩ := Tree.exists_ok_of_bind hwritten
    obtain ⟨hnul, hfile⟩ := of_request hrequest
    cases hwritten
    exact .written hnul hfile
  | makeLink path target =>
    refine becomes_change fun t hmade => ?_
    obtain ⟨_, hnul, hmade⟩ := Tree.exists_ok_of_bind hmade
    obtain ⟨htarget, hlink⟩ := of_request hmade
    exact .linked (nul_not_mem_of_withoutNul hnul) htarget hlink
  | remove path =>
    dsimp only
    unfold remove
    split
    · exact .same
    · rename_i hnul
      exact .removed (nul_not_mem_of_withoutNul hnul)
  | setVariable name value =>
    dsimp only
    unfold setVariable
    dsimp only
    split <;> exact .same
  | unsetVariable name => exact .same
  | changeDirectory path =>
    dsimp only
    unfold changeDirectory
    split
    · exact .same
    · split <;> exact .same
  | moveProject path => exact .same
  | resolve query name =>
    dsimp only
    unfold resolve
    dsimp only
    split <;> exact .same
  | resolvePath query => exact .same
  | arrowData => exact .same
  | parquetData => exact .same
  | compareSaved name other => exact .same
  | scratch fileName content handle =>
    dsimp only
    unfold scratch
    split
    · exact .same
    · rename_i bytes _
      have hcreated : w.Becomes (Scratch.create w.toSurroundings fileName bytes).1 :=
        .scratched fileName bytes
      split
      · rename_i heq
        rwa [heq] at hcreated
      · rename_i heq
        rwa [heq] at hcreated
  | read handle count =>
    refine becomes_withHandle handle fun held t held' answer hread => ?_
    obtain ⟨⟨bytes, after⟩, _, hread⟩ := Tree.exists_ok_of_bind hread
    cases hread
    exact .same
  | write handle content =>
    refine becomes_withHandle handle fun held t held' answer hwritten => ?_
    obtain ⟨bytes, _, hwritten⟩ := Tree.exists_ok_of_bind hwritten
    obtain ⟨⟨t', after, written⟩, hmapped, hwritten⟩ := Tree.exists_ok_of_bind hwritten
    cases hwritten
    cases hresult : held.write w.tree bytes with
    | error failure =>
      rw [hresult] at hmapped
      cases hmapped
    | ok result =>
      rw [hresult] at hmapped
      cases hmapped
      exact becomes_write hresult
  | seek handle distance whence =>
    refine becomes_withHandle handle fun held t held' answer hmoved => ?_
    obtain ⟨after, _, hmoved⟩ := Tree.exists_ok_of_bind hmoved
    cases hmoved
    exact .same
  | tell handle =>
    refine becomes_withHandle handle fun held t held' answer htold => ?_
    obtain ⟨offset, _, htold⟩ := Tree.exists_ok_of_bind htold
    cases htold
    exact .same
  | close handle =>
    refine becomes_withHandle handle fun held t held' answer hclosed => ?_
    cases hclosed
    exact .same
  | fileContent path => exact .same
  | list path => exact .same

/-! ## What every run keeps -/

/-- A step keeps the tree well-formed. -/
theorem wellFormed_perform [Machine] (h : w.tree.WellFormed) (request : Request) :
    (w.perform request).1.tree.WellFormed := by
  have hbecomes := becomes_perform w request
  generalize (w.perform request).1.tree = after at hbecomes
  cases hbecomes with
  | same => exact h
  | provided path => exact h.provideWithin w.workingDirectory path.length path.toList
  | written hnul hwritten => exact h.writeFile hnul hwritten
  | linked hnul htarget hmade => exact h.makeLink hnul htarget hmade
  | removed hnul => exact h.remove w.workingDirectory hnul
  | scratched name content => exact Scratch.wellFormed_create h name content
  | overwritten file offset bytes => exact h.write file offset bytes

/-- A step moves no directory. -/
theorem keepsAbove_perform [Machine] (w : Workspace) (request : Request) :
    w.tree.KeepsAbove (w.perform request).1.tree := by
  have hbecomes := becomes_perform w request
  generalize (w.perform request).1.tree = after at hbecomes
  cases hbecomes with
  | same => exact .refl w.tree
  | provided path => exact Tree.keepsAbove_provideWithin ..
  | written _ hwritten => exact Tree.keepsAbove_writeFile hwritten
  | linked _ _ hmade => exact Tree.keepsAbove_makeLink hmade
  | removed _ => exact Tree.keepsAbove_remove ..
  | scratched name content => exact Scratch.keepsAbove_create ..
  | overwritten file offset bytes => exact Tree.keepsAbove_write ..

/-- A run that begins with a well-formed tree keeps it so, whatever is asked for. -/
theorem wellFormed_run [Machine] (h : w.tree.WellFormed) (requests : List Request) :
    (w.run requests).1.tree.WellFormed := by
  induction requests generalizing w with
  | nil => exact h
  | cons request rest ih => exact ih (wellFormed_perform h request)

/-- **Every reachable tree is sound.** A run that begins with a sound tree keeps it so, whatever is
asked for. -/
theorem sound_run [Machine] (h : w.tree.Sound) (requests : List Request) :
    (w.run requests).1.tree.Sound := by
  induction requests generalizing w with
  | nil => exact h
  | cons request rest ih =>
    exact ih ((keepsAbove_perform w request).sound h (wellFormed_perform h.toWellFormed request))

end Workspace

end Fixtures
