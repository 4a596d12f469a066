import Fixtures.Note
import Fixtures.Settings
import Fixtures.Surroundings
import Fixtures.Tree.Ensure

/-!
# Scratch files

A scratch file is written afresh into a directory below the one the fixtures stand in, which is
made if it is missing, and is then opened for reading and writing at its start. Nothing that is
there already is lost unless the file itself can be opened. What is written is in the file at once;
when it reaches the disk is left out.
-/

namespace Fixtures.Scratch

/-- Why there is no scratch file. -/
inductive Failure where
  /-- The file system refuses a request; the path is missing if the fixtures stand nowhere. -/
  | system (fault : Tree.Fault) (path : Option Path)
  /-- The name of the file holds a NUL. -/
  | nulInPath
  deriving DecidableEq

/-- The message of a failure. -/
def Failure.message : Failure → String
  | .system fault _ => fault.message
  | .nulInPath => "embedded null byte"

/-- The directory of scratch files below a directory. -/
def directoryBelow (path : Path) : Path :=
  Settings.scratchNames.foldl (fun path name => path.join (Path.ofText name)) path

/-- The directory of scratch files. -/
def directory (s : Surroundings) : Except Failure Path :=
  match s.tree.pathOf s.workingDirectory with
  | .ok text => .ok (directoryBelow (Path.ofText text))
  | .error fault => .error (.system fault none)

/-- The directory of scratch files, after it has been made. -/
def prepare (s : Surroundings) : Tree × Except Failure Path :=
  match directory s with
  | .error failure => (s.tree, .error failure)
  | .ok path =>
    match s.tree.ensure s.workingDirectory path with
    | (t, .ok ()) => (t, .ok path)
    | (t, .error (fault, path)) => (t, .error (.system fault (some path)))

/-- Writes a file afresh and opens it again: the tree afterwards, and the number of the file. -/
def writeAfresh (t : Tree) (here : NodeId) (path : Path) (content : List UInt8) :
    Tree × Except Failure NodeId :=
  if path.toText.toList.contains '\x00' then (t, .error .nulInPath)
  else match t.writeFile here path.toText content with
    | .error fault => (t, .error (.system fault (some path)))
    | .ok (t, _) =>
      match t.openFile here path.toText with
      | .error fault => (t, .error (.system fault (some path)))
      | .ok id => (t, .ok id)

/-- Makes a scratch file of a name (`get_temp_file`): the tree afterwards, and the number of the
file with what is reported about it. -/
def create (s : Surroundings) (name : String) (content : List UInt8) :
    Tree × Except Failure (NodeId × Note) :=
  match prepare s with
  | (t, .error failure) => (t, .error failure)
  | (t, .ok directory) =>
    let path := directory.join (Path.ofText name)
    match writeAfresh t s.workingDirectory path content with
    | (t, .ok id) => (t, .ok (id, .wrote content.length path))
    | (t, .error failure) => (t, .error failure)

end Fixtures.Scratch
