import Fixtures.Note
import Fixtures.Settings
import Fixtures.Surroundings
import Fixtures.Text.Blank

/-!
# Locating data directories

A data directory is named by an environment variable or, while that is unset or blank, by a
fallback that is taken from a base directory. A variable that names something else than a directory
is an error: the fallback never stands in for a bad override.
-/

namespace Fixtures

namespace Locator

/-- Where a data directory came from (`DataDirSource`). -/
inductive Source where
  /-- From the environment variable. -/
  | override
  /-- From the fallback. -/
  | fallback
  deriving DecidableEq

/-- All sources, in their order. -/
def Source.all : List Source := [.override, .fallback]

/-- The name of a source. -/
def Source.name : Source → String
  | .override => "ENV"
  | .fallback => "FALLBACK"

/-- The word that stands for a source. -/
def Source.word : Source → String
  | .override => "env"
  | .fallback => "fallback"

/-- The source that a word stands for. -/
def Source.ofWord? (word : String) : Option Source :=
  Source.all.find? fun source => source.word == word

end Locator

/-- A directory that was there when it was located (`DataDir`). -/
structure DataDirectory where
  /-- Its path. -/
  path : Path
  /-- Where the path came from. -/
  source : Locator.Source
  /-- The environment variable that names or could have named it. -/
  variableName : String
  deriving DecidableEq

/-- What is reported about a directory that was located. -/
def DataDirectory.note (directory : DataDirectory) : Note :=
  match directory.source with
  | .override => .usingVariable directory.variableName directory.path
  | .fallback => .usingFallback directory.variableName directory.path

namespace Locator

/-- Why no data directory is located (`DataDirError`), or why that cannot be said. -/
inductive Failure where
  /-- The environment variable names something that is not a directory
  (`ConfiguredPathNotFound`). -/
  | configuredNotFound (variableName : String) (path : Path)
  /-- The environment variable is unset or blank, and the fallback is not a directory
  (`NoFallbackAvailable`). -/
  | noFallback (variableName : String) (path : Path)
  /-- The file system cannot say whether a path leads to a directory. -/
  | system (fault : Tree.Fault) (path : Path)
  deriving DecidableEq

/-- The message of a failure. -/
def Failure.message : Failure → String
  | .configuredNotFound variableName path =>
    "the data dir `" ++ path.toText ++ "` defined by env " ++ variableName ++ " not found"
  | .noFallback variableName path =>
    "env `" ++ variableName ++ "` is undefined or has empty value, and the pre-defined data dir `"
      ++ path.toText ++ "` not found\nHINT: try running `git submodule update --init`"
  | .system fault _ => fault.message

/-- Answers with a directory if its path leads to one, and with a failure otherwise. -/
def confirm (s : Surroundings) (directory : DataDirectory) (missing : Failure) :
    Except Failure DataDirectory :=
  match s.leadsToDirectory directory.path with
  | .ok true => .ok directory
  | .ok false => .error missing
  | .error fault => .error (.system fault directory.path)

/-- What is confirmed is the directory itself, whose path leads to a directory. -/
theorem confirm_eq_ok_iff {s : Surroundings} {directory found : DataDirectory}
    {missing : Failure} : confirm s directory missing = .ok found ↔
      found = directory ∧ s.leadsToDirectory directory.path = .ok true := by
  unfold confirm
  cases s.leadsToDirectory directory.path with
  | error fault => simp
  | ok leads => cases leads <;> simp [eq_comm]

/-- The value of a variable without blanks at its ends; an unset one counts as empty. -/
def configured (s : Surroundings) (variableName : String) : String :=
  Text.trim ((s.valueOf? variableName).getD "")

/-- Locates the data directory that a variable names or, if the variable is unset or blank, the
fallback taken from a base, which is the root of the project unless another one is given
(`resolve_data_dir`). -/
def resolve (s : Surroundings) (variableName : String) (fallback : Path)
    (base : Option Path) : Except Failure DataDirectory :=
  let value := configured s variableName
  if value.isEmpty then
    let path := (base.getD s.projectRoot).join fallback
    confirm s ⟨path, .fallback, variableName⟩ (.noFallback variableName path)
  else
    let path := Path.ofText value
    confirm s ⟨path, .override, variableName⟩ (.configuredNotFound variableName path)

/-- A variable that is set to more than blanks decides alone. -/
theorem resolve_of_configured {s : Surroundings} {variableName : String}
    (h : configured s variableName ≠ "") (fallback : Path) (base : Option Path) :
    resolve s variableName fallback base =
      confirm s ⟨Path.ofText (configured s variableName), .override, variableName⟩
        (.configuredNotFound variableName (Path.ofText (configured s variableName))) := by
  simp [resolve, h]

/-- While a variable is unset or blank the fallback is taken from the base. -/
theorem resolve_of_blank {s : Surroundings} {variableName : String}
    (h : configured s variableName = "") (fallback : Path) (base : Option Path) :
    resolve s variableName fallback base =
      confirm s ⟨(base.getD s.projectRoot).join fallback, .fallback, variableName⟩
        (.noFallback variableName ((base.getD s.projectRoot).join fallback)) := by
  simp [resolve, h]

/-- Why a corpus is not found. -/
inductive CorpusFailure where
  /-- No directory is located for it. -/
  | unavailable (corpusName : String) (cause : Failure)
  /-- The file system cannot say whether a path leads to a directory. -/
  | system (fault : Tree.Fault) (path : Path)
  deriving DecidableEq

/-- The message of a failure, which gives its cause after the name of the corpus. -/
def CorpusFailure.message : CorpusFailure → String
  | .unavailable corpusName cause =>
    "failed to get " ++ corpusName ++ " data dir: " ++ cause.message
  | .system fault _ => fault.message

/-- Locates the directory of a corpus. -/
def corpus (s : Surroundings) (c : Settings.Corpus) : Except CorpusFailure DataDirectory :=
  match resolve s c.variableName (Path.ofText c.usualPlace) none with
  | .ok directory => .ok directory
  | .error (.system fault path) => .error (.system fault path)
  | .error cause => .error (.unavailable c.name cause)

/-- The path of the directory of arrow files (`arrow_test_data`). -/
def arrowData (s : Surroundings) : Except CorpusFailure String :=
  (corpus s Settings.arrowCorpus).map fun directory => directory.path.toText

/-- The path of the directory of parquet files (`parquet_test_data`). -/
def parquetData (s : Surroundings) : Except CorpusFailure String :=
  (corpus s Settings.parquetCorpus).map fun directory => directory.path.toText

end Locator

end Fixtures
