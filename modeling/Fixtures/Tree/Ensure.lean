import Fixtures.Tree.Edit

/-!
# Directories with those above them

A directory can be made together with the ones above it that are missing. A directory that is there
already is left alone, and a link to one counts as one. There are two orders. From below, the
deepest directory is tried first, and only where a name on the way to it is missing is the one above
it made before a second try. From above, the text of the path is cut at its slashes, and each
directory is tried after the one above it, unless that one is there.
-/

namespace Fixtures.Tree

/-- Decides about a path at which no directory could be made: a directory that is there will do,
and otherwise the fault stands. -/
def settleFor (t : Tree) (here : NodeId) (path : Path) (fault : Fault) :
    Except (Fault × Path) Unit :=
  match t.leadsToDirectory here path.toText with
  | .ok true => .ok ()
  | .ok false => .error (fault, path)
  | .error other => .error (other, path)

/-- Makes a directory, unless one is there. -/
def ensureLast (t : Tree) (here : NodeId) (path : Path) : Tree × Except (Fault × Path) Unit :=
  match t.makeDirectory here path.toText with
  | .ok t => (t, .ok ())
  | .error .noEntry => (t, .error (.noEntry, path))
  | .error fault => (t, t.settleFor here path fault)

/-- Makes a directory with up to `depth` missing ones above it, unless it is there. A fault is
handed on with the path at which it arose. -/
def ensureWithin (t : Tree) (here : NodeId) :
    (depth : Nat) → Path → Tree × Except (Fault × Path) Unit
  | 0, path => t.ensureLast here path
  | depth + 1, path =>
    match t.makeDirectory here path.toText with
    | .ok t => (t, .ok ())
    | .error .noEntry =>
      match t.ensureWithin here depth path.parent with
      | (t, .ok ()) => t.ensureLast here path
      | (t, .error failure) => (t, .error failure)
    | .error fault => (t, t.settleFor here path fault)

/-- Makes a directory with all missing ones above it, unless it is there. -/
def ensure (t : Tree) (here : NodeId) (path : Path) : Tree × Except (Fault × Path) Unit :=
  t.ensureWithin here path.parts.length path

/-- Why no directory is made at a path. -/
inductive Obstacle where
  /-- The file system refuses to make one at a path. -/
  | system (fault : Fault) (path : String)
  /-- The path holds a NUL. -/
  | nulInPath
  deriving DecidableEq

/-- The texts before and behind the last slash of a text. Slashes at the end of the first are
dropped, unless there is nothing else. -/
def cutAtLastSlash (cs : List Char) : List Char × List Char :=
  let last := (cs.reverse.takeWhile (· != '/')).reverse
  let front := cs.take (cs.length - last.length)
  let above := (front.reverse.dropWhile (· = '/')).reverse
  (if above.isEmpty then front else above, last)

/-- The text of the path above a path, and the path's last piece. -/
def aboveAndLast (cs : List Char) : List Char × List Char :=
  match cutAtLastSlash cs with
  | (above, []) => cutAtLastSlash above
  | parts => parts

/-- Whether a path leads anywhere. -/
def leadsSomewhere (t : Tree) (here : NodeId) (cs : List Char) : Bool :=
  !cs.contains '\x00' && (t.lookUp here (String.ofList cs)).toOption.isSome

/-- Makes a directory, unless one is there. -/
def provideLast (t : Tree) (here : NodeId) (cs : List Char) : Tree × Except Obstacle Unit :=
  if cs.contains '\x00' then (t, .error .nulInPath)
  else
    let path := String.ofList cs
    match t.makeDirectory here path with
    | .ok t => (t, .ok ())
    | .error fault =>
      match t.leadsToDirectory here path with
      | .ok true => (t, .ok ())
      | _ => (t, .error (.system fault path))

/-- Makes a directory after up to `depth` ones above it. Where the name above is there and is no
directory, the attempt goes on all the same. -/
def provideWithin (t : Tree) (here : NodeId) :
    (depth : Nat) → List Char → Tree × Except Obstacle Unit
  | 0, cs => t.provideLast here cs
  | depth + 1, cs =>
    let (above, last) := aboveAndLast cs
    if above.isEmpty || last.isEmpty || t.leadsSomewhere here above then t.provideLast here cs
    else
      let (t, result) := t.provideWithin here depth above
      match result with
      | .error .nulInPath => (t, result)
      | .error (.system .exists _) | .ok () =>
        if last = ['.'] then (t, .ok ()) else t.provideLast here cs
      | .error (.system _ _) => (t, result)

/-- Makes a directory after the missing ones above it, unless it is there. -/
def provide (t : Tree) (here : NodeId) (path : String) : Tree × Except Obstacle Unit :=
  t.provideWithin here path.length path.toList

end Fixtures.Tree
