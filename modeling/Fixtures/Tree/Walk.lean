import Fixtures.Path
import Fixtures.Tree.Basic

/-!
# Walks through a tree

The look-up of a path is a walk, one step for each piece of its text. Every step starts in a
directory. A step onto a symbolic link goes on with the pieces of the link's target, from the
directory of the link or from the root, and then with the rest; a walk may take forty links. A walk
ends at a node, or at the vacant place of a last name that is missing.
-/

namespace Fixtures.Tree

/-- A step of a walk. -/
inductive Step where
  /-- Stays in the directory. -/
  | stay
  /-- Goes to the directory above. -/
  | up
  /-- Goes to an entry. -/
  | name (name : String)
  /-- The slash at the end of a text, before which there has to be a directory. -/
  | finalSlash
  deriving DecidableEq

/-- The step for a piece of a text that is not empty. -/
def Step.ofPiece (piece : List Char) : Step :=
  if piece = ['.'] then .stay
  else if piece = ['.', '.'] then .up
  else .name (String.ofList piece)

/-- The steps of a text: its pieces between slashes except the empty ones, and a slash at its end
if it follows a piece. -/
def stepsOfChars (cs : List Char) : List Step :=
  let steps := ((splitSlashes cs).filter fun piece => !piece.isEmpty).map Step.ofPiece
  if cs.getLast? = some '/' && !steps.isEmpty then steps ++ [.finalSlash] else steps

/-- Where a walk ends. -/
inductive Arrival where
  /-- At a node. -/
  | node (id : NodeId)
  /-- In a directory, at a name that is missing there. -/
  | vacant (directory : NodeId) (name : String)
  deriving DecidableEq

/-- The longest name, in bytes. -/
def nameLimit : Nat := 255

/-- The longest path, in bytes. -/
def pathLimit : Nat := 4095

/-- The most symbolic links that one look-up takes. -/
def linkLimit : Nat := 40

/-- Takes a step in a directory that has the number `here`. In a removed directory no name is
found, and none is vacant either. -/
def enter (directory : Directory) (here : NodeId) : Step → Except Fault Arrival
  | .stay | .finalSlash => .ok (.node here)
  | .up => .ok (.node directory.parent)
  | .name name =>
    if directory.removed then .error .noEntry
    else if nameLimit < name.utf8ByteSize then .error .nameTooLong
    else match directory.entries.find? name with
      | some id => .ok (.node id)
      | none => .ok (.vacant here name)

/-- Where the walk of a text begins: at the root if the text begins with a slash, and else in the
directory it is read from. -/
def origin (cs : List Char) (here : NodeId) : NodeId :=
  if cs.head? = some '/' then root else here

/-- Takes steps up to the next link, behind which `follow` goes on. With `creating`, a walk that
ends in a slash is refused where the name before it would be looked up, because no file can be
made there. -/
def passAlong (t : Tree) (creating : Bool)
    (follow : NodeId → List Step → Except Fault Arrival) :
    NodeId → List Step → Except Fault Arrival
  | here, [] => .ok (.node here)
  | here, step :: rest =>
    match t.directory? here with
    | none => .error .notDirectory
    | some directory =>
      if creating && rest == [.finalSlash] then .error .isDirectory
      else match enter directory here step with
        | .error fault => .error fault
        | .ok (.vacant place name) =>
          if rest.isEmpty then .ok (.vacant place name) else .error .noEntry
        | .ok (.node next) =>
          match t.target? next with
          | some target =>
            follow (origin target.toList here) (stepsOfChars target.toList ++ rest)
          | none => passAlong t creating follow next rest

/-- A walk that may still take a number of links. -/
def walk (t : Tree) (creating : Bool) : (links : Nat) → NodeId → List Step → Except Fault Arrival
  | 0 => t.passAlong creating fun _ _ => .error .tooManyLinks
  | links + 1 => t.passAlong creating (t.walk creating links)

/-- The steps of a path's text, unless it is empty or too long. -/
def steps (text : String) : Except Fault (List Step) :=
  if text.isEmpty then .error .noEntry
  else if pathLimit < text.utf8ByteSize then .error .nameTooLong
  else .ok (stepsOfChars text.toList)

/-- The node that a path leads to from a directory, links followed to the end. -/
def lookUp (t : Tree) (here : NodeId) (text : String) : Except Fault NodeId := do
  let steps ← steps text
  match ← t.walk false linkLimit (origin text.toList here) steps with
  | .node id => .ok id
  | .vacant _ _ => .error .noEntry

/-- Whether a path leads to a directory. A path that leads nowhere, through something that is no
directory or around in circles does not, and neither does one with a NUL in it; any other fault is
handed on. -/
def leadsToDirectory (t : Tree) (here : NodeId) (text : String) : Except Fault Bool :=
  if text.toList.contains '\x00' then .ok false
  else match t.lookUp here text with
    | .ok id => .ok (t.directory? id).isSome
    | .error .noEntry | .error .notDirectory | .error .tooManyLinks => .ok false
    | .error fault => .error fault

/-- The names on the way from the root down to a directory that has not been removed. Directories
are made after the ones above them, so the numbers fall on the way up; `fuel` is a number above
that of the directory. -/
def namesTo? (t : Tree) : (fuel : Nat) → NodeId → Option (List String)
  | 0, _ => none
  | fuel + 1, id =>
    if id = root then some []
    else do
      let directory ← t.directory? id
      let above ← t.directory? directory.parent
      let entry ← above.entries.entries.find? fun entry => entry.2 == id
      let names ← t.namesTo? fuel directory.parent
      some (names ++ [entry.1])

/-- The path of a directory from the root. A removed directory has none. -/
def pathOf (t : Tree) (id : NodeId) : Except Fault String :=
  match t.namesTo? (id + 1) id with
  | some names => .ok (String.ofList ('/' :: Path.joinParts names))
  | none => .error .noEntry

end Fixtures.Tree
