import Fixtures.Tree.Walk

/-!
# Changes to a tree

Making a directory, a link or a file at a path, writing to a file, and taking a name out of the
tree. A change either is refused, and then nothing happens, or answers with the tree after it.
-/

namespace Fixtures.Tree

/-- Whether a slash stands at the end of a text. -/
def endsInSlash (text : String) : Bool :=
  text.toList.getLast? = some '/'

/-- The last step of a path with the directory it is taken in and that directory's number. A slash
at the end counts for nothing, and a path without steps has no last one. -/
def lastStep? (t : Tree) (here : NodeId) (text : String) :
    Except Fault (Option (NodeId × Directory × Step)) := do
  let steps := (← steps text).filter fun step => step != .finalSlash
  match steps.getLast? with
  | none => .ok none
  | some step =>
    match ← t.walk false linkLimit (origin text.toList here) steps.dropLast with
    | .vacant _ _ => .error .noEntry
    | .node above =>
      match t.directory? above with
      | none => .error .notDirectory
      | some directory => .ok (some (above, directory, step))

/-- The tree in which a directory has an entry for a node. -/
def addEntry (t : Tree) (place : NodeId) (name : String) (id : NodeId) : Tree :=
  match t.directory? place with
  | some directory =>
    t.set place (.directory { directory with entries := directory.entries.insert name id })
  | none => t

/-- The tree with a new node at a vacant place. -/
def addNode (t : Tree) (place : NodeId) (name : String) (node : Node) : Tree :=
  (t.push node).addEntry place name t.size

/-- Makes a new node at a path whose last name is vacant. The node may depend on the number of the
directory it is made in. -/
def makeNode (t : Tree) (here : NodeId) (text : String) (node : NodeId → Node) :
    Except Fault Tree := do
  match ← t.lastStep? here text with
  | none => .error .exists
  | some (above, directory, step) =>
    match ← enter directory above step with
    | .node _ => .error .exists
    | .vacant place name => .ok (t.addNode place name (node place))

/-- Makes a directory. -/
def makeDirectory (t : Tree) (here : NodeId) (text : String) : Except Fault Tree :=
  t.makeNode here text fun above => .directory { parent := above }

/-- Makes a symbolic link. What it stands for is looked at before the path, and a slash at the end
of the path wants something to be there already. -/
def makeLink (t : Tree) (here : NodeId) (text target : String) : Except Fault Tree := do
  if target.isEmpty then .error .noEntry
  else if pathLimit < target.utf8ByteSize then .error .nameTooLong
  else
    let made ← t.makeNode here text fun _ => .link target
    if endsInSlash text then .error .noEntry else .ok made

/-- Opens an empty file at a path, following links to the end: a file that is there loses its
content, and one that is missing is made. -/
def openEmpty (t : Tree) (here : NodeId) (text : String) : Except Fault (Tree × NodeId) := do
  let steps ← steps text
  match ← t.walk true linkLimit (origin text.toList here) steps with
  | .vacant place name => .ok (t.addNode place name (.file .empty), t.size)
  | .node id =>
    match t.content? id with
    | some _ => .ok (t.set id (.file .empty), id)
    | none => .error .isDirectory

/-- The file that a path leads to. -/
def openFile (t : Tree) (here : NodeId) (text : String) : Except Fault NodeId := do
  let id ← t.lookUp here text
  match t.content? id with
  | some _ => .ok id
  | none => .error .isDirectory

/-- Writes bytes to a file. -/
def write (t : Tree) (id : NodeId) (offset : Nat) (bytes : List UInt8) : Tree :=
  match t.content? id with
  | some content => t.set id (.file (content.overwrite offset bytes))
  | none => t

/-- Writes a whole file: empties or makes it, and writes its content. -/
def writeFile (t : Tree) (here : NodeId) (text : String) (content : List UInt8) :
    Except Fault (Tree × NodeId) := do
  let (t, id) ← t.openEmpty here text
  .ok (t.write id 0 content, id)

/-- The content of the file that a path leads to. -/
def fileContent (t : Tree) (here : NodeId) (text : String) : Except Fault (List UInt8) := do
  let id ← t.openFile here text
  .ok ((t.content? id).getD .empty).toList

/-- The names in the directory that a path leads to, in the order of their code points. -/
def list (t : Tree) (here : NodeId) (text : String) : Except Fault (List String) := do
  let id ← t.lookUp here text
  match t.directory? id with
  | some directory => .ok (directory.entries.names.mergeSort fun a b => decide (a ≤ b))
  | none => .error .notDirectory

/-- The numbers of all nodes below a directory down to a depth. -/
def below (t : Tree) : (depth : Nat) → NodeId → List NodeId
  | 0, _ => []
  | depth + 1, id =>
    match t.directory? id with
    | some directory =>
      directory.entries.entries.flatMap fun entry => entry.2 :: t.below depth entry.2
    | none => []

/-- A node that is no longer in the tree. A directory is empty then. -/
def detached : Node → Node
  | .directory directory => .directory { directory with entries := {}, removed := true }
  | node => node

/-- The tree in which all that was below a directory is detached and the directory is empty. -/
def clear (t : Tree) (id : NodeId) : Tree :=
  let doomed := t.below t.size id
  let t : Tree := ⟨t.nodes.mapIdx fun i node => if doomed.contains i then detached node else node⟩
  match t.directory? id with
  | some directory => t.set id (.directory { directory with entries := {} })
  | none => t

/-- The tree in which a directory has lost a name, and the node of that name is detached. -/
def dropEntry (t : Tree) (place : NodeId) (name : String) (id : NodeId) : Tree :=
  let t := match t.node? id with
    | some node => t.set id (detached node)
    | none => t
  match t.directory? place with
  | some directory =>
    t.set place (.directory { directory with entries := directory.entries.erase name })
  | none => t

/-- Takes the last name of a path out of the tree, unless it is a directory's. A link is taken out
itself and not followed. -/
def unlink (t : Tree) (here : NodeId) (text : String) : Except Fault Tree := do
  match ← t.lastStep? here text with
  | some (above, directory, .name name) =>
    match ← enter directory above (.name name) with
    | .node id =>
      if (t.directory? id).isSome then .error .isDirectory
      else if endsInSlash text then .error .notDirectory
      else .ok (t.dropEntry above name id)
    | .vacant _ _ => .error .noEntry
  | _ => .error .isDirectory

/-- Takes an empty directory out of the tree. Its name has to be the last step of the path, and the
root is always in use. -/
def removeDirectory (t : Tree) (here : NodeId) (text : String) : Except Fault Tree := do
  match ← t.lastStep? here text with
  | some (above, directory, .name name) =>
    match ← enter directory above (.name name) with
    | .node id =>
      match t.directory? id with
      | some found =>
        if found.entries.names.isEmpty then .ok (t.dropEntry above name id) else .error .notEmpty
      | none => .error .notDirectory
    | .vacant _ _ => .error .noEntry
  | some (_, _, .up) => .error .notEmpty
  | some _ => .error .invalidArgument
  | none => .error .busy

/-- Whether the last name of a path is a link. Behind it a slash would follow the link. -/
def isLink (t : Tree) (here : NodeId) (text : String) : Bool :=
  match t.lastStep? here text with
  | .ok (some (above, directory, .name name)) =>
    match enter directory above (.name name) with
    | .ok (.node id) => (t.target? id).isSome && !endsInSlash text
    | _ => false
  | _ => false

/-- Takes away whatever is at a path. A directory is emptied first, and it stays empty where it
cannot be taken away itself. -/
def remove (t : Tree) (here : NodeId) (text : String) : Tree × Except Fault Unit :=
  let emptied := match t.lookUp here text with
    | .ok id => if (t.directory? id).isSome && !t.isLink here text then some (t.clear id) else none
    | .error _ => none
  let (t, result) := match emptied with
    | some t => (t, t.removeDirectory here text)
    | none => (t, t.unlink here text)
  match result with
  | .ok t => (t, .ok ())
  | .error fault => (t, .error fault)

end Fixtures.Tree
