/-!
# Faults of a file tree

The ways in which a file system refuses a request, with the number and the text of each.
-/

namespace Fixtures.Tree

/-- Why a file system refuses a request. -/
inductive Fault where
  /-- A name is missing. -/
  | noEntry
  /-- Something is in use and cannot be taken away. -/
  | busy
  /-- A name is there already. -/
  | exists
  /-- A directory is wanted and something else is there. -/
  | notDirectory
  /-- A file is wanted and a directory is there. -/
  | isDirectory
  /-- An argument makes no sense. -/
  | invalidArgument
  /-- No data lie at an offset or behind it. -/
  | noData
  /-- A file cannot grow as large. -/
  | fileTooLarge
  /-- A name or a whole path is too long. -/
  | nameTooLong
  /-- A directory that is to be taken away is not empty. -/
  | notEmpty
  /-- A look-up meets too many symbolic links. -/
  | tooManyLinks
  deriving DecidableEq

/-- The number of a fault. -/
def Fault.number : Fault → Nat
  | .noEntry => 2
  | .busy => 16
  | .exists => 17
  | .notDirectory => 20
  | .isDirectory => 21
  | .invalidArgument => 22
  | .noData => 6
  | .fileTooLarge => 27
  | .nameTooLong => 36
  | .notEmpty => 39
  | .tooManyLinks => 40

/-- The text of a fault. -/
def Fault.text : Fault → String
  | .noEntry => "No such file or directory"
  | .busy => "Device or resource busy"
  | .exists => "File exists"
  | .notDirectory => "Not a directory"
  | .isDirectory => "Is a directory"
  | .invalidArgument => "Invalid argument"
  | .noData => "No such device or address"
  | .fileTooLarge => "File too large"
  | .nameTooLong => "File name too long"
  | .notEmpty => "Directory not empty"
  | .tooManyLinks => "Too many levels of symbolic links"

/-- The message of a fault. -/
def Fault.message (fault : Fault) : String :=
  "[Errno " ++ toString fault.number ++ "] " ++ fault.text

end Fixtures.Tree
