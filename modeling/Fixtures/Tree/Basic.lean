import Fixtures.Registry
import Fixtures.Sparse
import Fixtures.Tree.Fault

/-!
# File trees

A tree is a table of nodes: directories, files and symbolic links. A directory knows the directory
above it, which is where `..` leads, and names its entries by their numbers in the table. Nothing
leaves the table, so a file that has been removed can still be used by those who hold it, and a
removed directory can still be stood in, although no name is found there any more. A file may have
more names than one, but nothing here gives it another one. Owners and permissions are left out.
-/

namespace Fixtures

/-- The place of a node in the table of a tree. -/
abbrev NodeId := Nat

/-- A directory. -/
structure Directory where
  /-- The directory above it; the root is above itself. -/
  parent : NodeId
  /-- The names in it. -/
  entries : Registry NodeId := {}
  /-- Whether it has been taken out of the tree. -/
  removed : Bool := false

/-- A node of a tree. -/
inductive Node where
  /-- A directory. -/
  | directory (directory : Directory)
  /-- A file with its content. -/
  | file (content : Sparse)
  /-- A symbolic link with the path it stands for. -/
  | link (target : String)

/-- A table of nodes, the first of which is the root. -/
structure Tree where
  /-- The nodes. -/
  nodes : List Node

namespace Tree

/-- The root of every tree. -/
def root : NodeId := 0

/-- The tree that has a root and nothing else. -/
def empty : Tree := ⟨[.directory { parent := root }]⟩

/-- The node of a number. -/
def node? (t : Tree) (id : NodeId) : Option Node :=
  t.nodes[id]?

/-- The directory of a number. -/
def directory? (t : Tree) (id : NodeId) : Option Directory :=
  match t.node? id with
  | some (.directory directory) => some directory
  | _ => none

/-- The content of the file of a number. -/
def content? (t : Tree) (id : NodeId) : Option Sparse :=
  match t.node? id with
  | some (.file content) => some content
  | _ => none

/-- What the link of a number stands for. -/
def target? (t : Tree) (id : NodeId) : Option String :=
  match t.node? id with
  | some (.link target) => some target
  | _ => none

/-- Puts a node in the place of another. -/
def set (t : Tree) (id : NodeId) (node : Node) : Tree :=
  ⟨t.nodes.set id node⟩

/-- Puts a node behind the others; its number is the number of nodes there were. -/
def push (t : Tree) (node : Node) : Tree :=
  ⟨t.nodes ++ [node]⟩

/-- The number of nodes, which is the number of the next one. -/
def size (t : Tree) : Nat :=
  t.nodes.length

/-- A node that was put in is there. -/
theorem node?_set_self (t : Tree) {id : NodeId} (h : id < t.size) (node : Node) :
    (t.set id node).node? id = some node := by
  simp [node?, set, List.getElem?_set_self (by exact h)]

/-- Putting in a node changes no other one. -/
theorem node?_set_of_ne (t : Tree) {id other : NodeId} (h : other ≠ id) (node : Node) :
    (t.set id node).node? other = t.node? other := by
  simp [node?, set, List.getElem?_set_ne (Ne.symm h)]

/-- A node that was put behind the others has the next number. -/
theorem node?_push_size (t : Tree) (node : Node) : (t.push node).node? t.size = some node := by
  simp [node?, push, size]

/-- A node that is put behind the others changes none of them. -/
theorem node?_push_of_lt (t : Tree) {id : NodeId} (h : id < t.size) (node : Node) :
    (t.push node).node? id = t.node? id := by
  simp [node?, push, List.getElem?_append_left (by exact h)]

/-- Behind the others there is one node more. -/
@[simp] theorem size_push (t : Tree) (node : Node) : (t.push node).size = t.size + 1 := by
  simp [size, push]

/-- Putting in a node changes nothing about their number. -/
@[simp] theorem size_set (t : Tree) (id : NodeId) (node : Node) :
    (t.set id node).size = t.size := by
  simp [size, set]

/-- Behind the last node there is none. -/
theorem node?_of_size_le (t : Tree) {id : NodeId} (h : t.size ≤ id) : t.node? id = none :=
  List.getElem?_eq_none h

end Tree

end Fixtures
