import Fixtures.Handle
import Fixtures.Locator
import Fixtures.Scratch
import Fixtures.SeededBytes
import Fixtures.Text.Hex
import Fixtures.Text.Quoted

/-!
# Workspaces

A workspace is the surroundings of the fixtures together with what a client holds: handles of
scratch files and directories located earlier, under names. Its steps change the surroundings, ask
the fixtures for directories and files, and use the handles.
-/

namespace Fixtures

/-- Surroundings with what a client holds. -/
structure Workspace extends Surroundings where
  /-- Handles under names. -/
  handles : Registry Handle := {}
  /-- Directories located earlier, under names. -/
  saved : Registry DataDirectory := {}

namespace Workspace

/-- What is written to a file. -/
inductive Content where
  /-- Given bytes, by their hexadecimal digits. -/
  | hex (digits : String)
  /-- As many seeded bytes as a value asks for. -/
  | seeded (count : Value)

/-- What a directory is located by. -/
structure Query where
  /-- The environment variable. -/
  variableName : String
  /-- The text of the fallback. -/
  fallback : String
  /-- The text of a base other than the root of the project. -/
  base : Option String := none

/-- A step. -/
inductive Request where
  /-- Makes a directory with those above it. -/
  | makeDirectory (path : String)
  /-- Writes a file. -/
  | writeFile (path : String) (content : Content)
  /-- Makes a symbolic link. -/
  | makeLink (path target : String)
  /-- Takes a name out of the tree. -/
  | remove (path : String)
  /-- Sets an environment variable. -/
  | setVariable (name value : String)
  /-- Unsets an environment variable. -/
  | unsetVariable (name : String)
  /-- Goes to another working directory. -/
  | changeDirectory (path : String)
  /-- Moves the root of the project. -/
  | moveProject (path : String)
  /-- Locates a directory, and keeps it under a name if there is one. -/
  | resolve (query : Query) (name : Option String)
  /-- Locates a directory and answers with its path only (`get_data_dir`). -/
  | resolvePath (query : Query)
  /-- Locates the directory of arrow files. -/
  | arrowData
  /-- Locates the directory of parquet files. -/
  | parquetData
  /-- Whether two directories located earlier are the same in all respects. -/
  | compareSaved (name other : String)
  /-- Makes a scratch file and keeps its handle under a name. -/
  | scratch (fileName : String) (content : Content) (handle : String)
  /-- Reads from a handle. -/
  | read (handle : String) (count : Int)
  /-- Writes to a handle. -/
  | write (handle : String) (content : Content)
  /-- Moves a handle. -/
  | seek (handle : String) (distance : Int) (whence : Handle.Whence)
  /-- Asks a handle for its offset. -/
  | tell (handle : String)
  /-- Closes a handle. -/
  | close (handle : String)
  /-- Reads a whole file. -/
  | fileContent (path : String)
  /-- Lists a directory. -/
  | list (path : String)

/-- An answer. -/
inductive Answer where
  /-- There is nothing to tell. -/
  | nothing
  /-- A directory that was located. -/
  | directory (directory : DataDirectory)
  /-- The text of a path. -/
  | path (path : String)
  /-- Whether something holds. -/
  | truth (b : Bool)
  /-- A handle that was opened. -/
  | opened (handle : Handle)
  /-- Bytes that were read. -/
  | bytes (bytes : List UInt8)
  /-- A number of bytes, or an offset. -/
  | number (n : Nat)
  /-- Names in a directory. -/
  | names (names : List String)

/-- Why a step fails. -/
inductive Failure where
  /-- No directory is located. -/
  | locator (failure : Locator.Failure)
  /-- A corpus is not found. -/
  | corpus (failure : Locator.CorpusFailure)
  /-- No scratch file is made. -/
  | scratch (failure : Scratch.Failure)
  /-- A handle cannot be used so. -/
  | handle (failure : Handle.Failure)
  /-- The file system refuses a request. -/
  | system (fault : Tree.Fault) (path : String)
  /-- A path, or the name or the value of a variable, holds a NUL. -/
  | nul
  /-- The name of a variable is empty. -/
  | emptyVariableName
  /-- The name of a variable holds an equals sign. -/
  | badVariableName
  /-- The digits of a content are no bytes. -/
  | badHex (fault : Text.HexFault)
  /-- The content of a file is not made. -/
  | content (failure : SeededBytes.Failure)
  /-- Nothing is held under a name. -/
  | unknown (name : String)

/-- The message of a failure. -/
def Failure.message : Failure → String
  | .locator failure => failure.message
  | .corpus failure => failure.message
  | .scratch failure => failure.message
  | .handle failure => failure.message
  | .system fault _ => fault.message
  | .nul => "embedded null byte"
  | .emptyVariableName => Tree.Fault.invalidArgument.message
  | .badVariableName => "illegal environment variable name"
  | .badHex fault => fault.message
  | .content failure => failure.message
  | .unknown name => Text.Quoted.quote name

/-- An answer together with what was reported on the way. -/
structure Outcome where
  /-- The answer. -/
  answer : Except Failure Answer
  /-- The reports. -/
  notes : List Note := []

/-- The outcome of a step that answers, or fails, without a report. -/
def Outcome.silent (answer : Except Failure Answer) : Outcome := ⟨answer, []⟩

/-- The bytes of a content. -/
def Content.get : Content → Except Failure (List UInt8)
  | .hex digits => (Text.bytesOfHex digits.toList).mapError .badHex
  | .seeded count => (SeededBytes.ofValue count).mapError .content

/-- Refuses a text that holds a NUL. -/
def withoutNul (text : String) : Except Failure Unit :=
  if text.toList.contains '\x00' then .error .nul else .ok ()

/-- A request at a path, which cannot be made if the path holds a NUL. -/
def request {α : Type} (path : String) (result : Except Tree.Fault α) : Except Failure α := do
  withoutNul path
  result.mapError (.system · path)

/-- Puts a changed tree in the place of the tree, unless the change was refused. -/
def change (w : Workspace) (result : Except Failure Tree) : Workspace × Outcome :=
  match result with
  | .ok tree => ({ w with tree := tree }, .silent (.ok .nothing))
  | .error failure => (w, .silent (.error failure))

/-- Makes a directory after the missing ones above it. -/
def makeDirectory (w : Workspace) (path : String) : Workspace × Outcome :=
  let (tree, result) := w.tree.provide w.workingDirectory path
  let answer := match result with
    | .ok () => .ok .nothing
    | .error .nulInPath => .error .nul
    | .error (.system fault path) => .error (.system fault path)
  ({ w with tree := tree }, .silent answer)

/-- Writes a file at the path that a text stands for. The content is made first. -/
def writeFile (w : Workspace) (path : String) (content : Content) : Workspace × Outcome :=
  w.change do
    let bytes ← content.get
    let path := (Path.ofText path).toText
    let (tree, _) ← request path (w.tree.writeFile w.workingDirectory path bytes)
    .ok tree

/-- Makes a symbolic link. A refusal names what the link was to stand for. -/
def makeLink (w : Workspace) (path target : String) : Workspace × Outcome :=
  w.change do
    withoutNul path
    request target (w.tree.makeLink w.workingDirectory path target)

/-- Takes away what is at a path. -/
def remove (w : Workspace) (path : String) : Workspace × Outcome :=
  match withoutNul path with
  | .error failure => (w, .silent (.error failure))
  | .ok () =>
    let (tree, result) := w.tree.remove w.workingDirectory path
    let answer := match result with
      | .ok () => .ok .nothing
      | .error fault => .error (.system fault path)
    ({ w with tree := tree }, .silent answer)

/-- Sets an environment variable, if there can be one of the name with the value. -/
def setVariable (w : Workspace) (name value : String) : Workspace × Outcome :=
  let checked : Except Failure Unit := do
    withoutNul name
    withoutNul value
    if name.toList.contains '=' then .error .badVariableName
    else if name.isEmpty then .error .emptyVariableName
    else .ok ()
  match checked with
  | .ok () =>
    ({ w with environment := w.environment.insert name value }, .silent (.ok .nothing))
  | .error failure => (w, .silent (.error failure))

/-- Goes to another working directory. -/
def changeDirectory (w : Workspace) (path : String) : Workspace × Outcome :=
  match request path (w.tree.lookUp w.workingDirectory path) with
  | .error failure => (w, .silent (.error failure))
  | .ok id =>
    if (w.tree.directory? id).isSome then
      ({ w with workingDirectory := id }, .silent (.ok .nothing))
    else (w, .silent (.error (.system .notDirectory path)))

/-- Locates the directory that a query is about. -/
def locate (w : Workspace) (query : Query) : Except Locator.Failure DataDirectory :=
  Locator.resolve w.toSurroundings query.variableName (.ofText query.fallback)
    (query.base.map Path.ofText)

/-- The outcome of locating a directory, from which an answer is made. -/
def located (result : Except Failure DataDirectory) (answer : DataDirectory → Answer) : Outcome :=
  match result with
  | .ok directory => ⟨.ok (answer directory), [directory.note]⟩
  | .error failure => .silent (.error failure)

/-- Locates a directory, and keeps it under a name if there is one. -/
def resolve (w : Workspace) (query : Query) (name : Option String) : Workspace × Outcome :=
  let result := w.locate query
  let w := match result, name with
    | .ok directory, some name => { w with saved := w.saved.insert name directory }
    | _, _ => w
  (w, located (result.mapError .locator) .directory)

/-- Makes a scratch file and keeps its handle. The handle that was held under the name before is
given up only then. -/
def scratch (w : Workspace) (fileName : String) (content : Content) (handle : String) :
    Workspace × Outcome :=
  match content.get with
  | .error failure => (w, .silent (.error failure))
  | .ok bytes =>
    match Scratch.create w.toSurroundings fileName bytes with
    | (tree, .error failure) => ({ w with tree := tree }, .silent (.error (.scratch failure)))
    | (tree, .ok (file, note)) =>
      let opened : Handle := { file := file }
      ({ w with tree := tree, handles := w.handles.insert handle opened },
        ⟨.ok (.opened opened), [note]⟩)

/-- Uses the handle of a name, which leaves a tree, a handle and an answer. -/
def withHandle (w : Workspace) (name : String)
    (use : Handle → Except Failure (Tree × Handle × Answer)) : Workspace × Outcome :=
  match w.handles.find? name with
  | none => (w, .silent (.error (.unknown name)))
  | some handle =>
    match use handle with
    | .error failure => (w, .silent (.error failure))
    | .ok (tree, handle, answer) =>
      ({ w with tree := tree, handles := w.handles.insert name handle }, .silent (.ok answer))

/-- Whether two directories located earlier are the same in all respects. -/
def compareSaved (w : Workspace) (name other : String) : Except Failure Answer :=
  match w.saved.find? name, w.saved.find? other with
  | some a, some b => .ok (.truth (decide (a = b)))
  | none, _ => .error (.unknown name)
  | _, none => .error (.unknown other)

/-- Does one step: the workspace afterwards, and the outcome. -/
def perform [Machine] (w : Workspace) : Request → Workspace × Outcome
  | .makeDirectory path => w.makeDirectory path
  | .writeFile path content => w.writeFile path content
  | .makeLink path target => w.makeLink path target
  | .remove path => w.remove path
  | .setVariable name value => w.setVariable name value
  | .unsetVariable name =>
    ({ w with environment := w.environment.erase name }, .silent (.ok .nothing))
  | .changeDirectory path => w.changeDirectory path
  | .moveProject path => ({ w with projectRoot := .ofText path }, .silent (.ok .nothing))
  | .resolve query name => w.resolve query name
  | .resolvePath query =>
    (w, located ((w.locate query).mapError .locator) fun directory => .path directory.path.toText)
  | .arrowData =>
    (w, located ((Locator.corpus w.toSurroundings Settings.arrowCorpus).mapError .corpus)
      fun directory => .path directory.path.toText)
  | .parquetData =>
    (w, located ((Locator.corpus w.toSurroundings Settings.parquetCorpus).mapError .corpus)
      fun directory => .path directory.path.toText)
  | .compareSaved name other => (w, .silent (w.compareSaved name other))
  | .scratch fileName content handle => w.scratch fileName content handle
  | .read handle count =>
    w.withHandle handle fun h => do
      let (bytes, h) ← (h.read w.tree count).mapError .handle
      .ok (w.tree, h, .bytes bytes)
  | .write handle content =>
    w.withHandle handle fun h => do
      let bytes ← content.get
      let (tree, h, written) ← (h.write w.tree bytes).mapError .handle
      .ok (tree, h, .number written)
  | .seek handle distance whence =>
    w.withHandle handle fun h => do
      let h ← (h.seek w.tree distance whence).mapError .handle
      .ok (w.tree, h, .number h.offset)
  | .tell handle =>
    w.withHandle handle fun h => do
      let offset ← h.tell.mapError .handle
      .ok (w.tree, h, .number offset)
  | .close handle => w.withHandle handle fun h => .ok (w.tree, h.close, .nothing)
  | .fileContent path =>
    (w, .silent ((request path (w.tree.fileContent w.workingDirectory path)).map .bytes))
  | .list path => (w, .silent ((request path (w.tree.list w.workingDirectory path)).map .names))

/-- Does the steps in turn: the workspace at the end, and the outcomes. -/
def run [Machine] (w : Workspace) : List Request → Workspace × List Outcome
  | [] => (w, [])
  | request :: rest =>
    let (w, outcome) := w.perform request
    let (w, outcomes) := w.run rest
    (w, outcome :: outcomes)

end Workspace

end Fixtures
