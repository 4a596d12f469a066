import Fixtures.Path

/-!
# Notes

What the fixtures report beside their answers: which place a directory was taken from, and how
much was written where.
-/

namespace Fixtures

/-- A report. -/
inductive Note where
  /-- A directory was taken from an environment variable. -/
  | usingVariable (variableName : String) (path : Path)
  /-- An environment variable was unset or blank, and a directory was taken from its usual place. -/
  | usingFallback (variableName : String) (path : Path)
  /-- A file was written. -/
  | wrote (count : Nat) (path : Path)
  deriving DecidableEq

/-- The text of a report. -/
def Note.text : Note → String
  | .usingVariable variableName path =>
    "using " ++ path.toText ++ " from env " ++ variableName
  | .usingFallback variableName path =>
    "env " ++ variableName ++ " unset, using fallback " ++ path.toText
  | .wrote count path => "wrote " ++ toString count ++ " bytes to " ++ path.toText

end Fixtures
