import Fixtures.Tree.Walk

/-!
# Surroundings

What the fixtures find around them: a file tree and a directory to stand in, the environment
variables, and the root of the project whose corpora lie beside it. Where the root lies is given.
-/

namespace Fixtures

/-- The world that a look-up depends on. -/
structure Surroundings where
  /-- The file tree. -/
  tree : Tree
  /-- The directory that relative paths start from. -/
  workingDirectory : NodeId
  /-- The environment variables that are set. -/
  environment : Registry String := {}
  /-- The root of the project. -/
  projectRoot : Path

namespace Surroundings

/-- Whether a variable can have a name: it is not empty and holds no equals sign and no NUL. -/
def isVariableName (name : String) : Bool :=
  !name.isEmpty && !name.toList.contains '=' && !name.toList.contains '\x00'

/-- The value of an environment variable that is set. -/
def valueOf? (s : Surroundings) (name : String) : Option String :=
  if isVariableName name then s.environment.find? name else none

/-- Whether a path leads to a directory from where the fixtures stand. -/
def leadsToDirectory (s : Surroundings) (path : Path) : Except Tree.Fault Bool :=
  s.tree.leadsToDirectory s.workingDirectory path.toText

end Surroundings

end Fixtures
