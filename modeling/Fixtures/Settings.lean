/-!
# Settings shared by the fixtures

Every deterministic generator starts from one seed, generated bytes stay below one bound, and the
two corpora are each found through one environment variable and one relative place. All other
modules take these values from here.
-/

namespace Fixtures.Settings

/-- The seed of every deterministic generator (`SEED`). -/
def seed : Nat := 42

/-- Generated bytes lie below this bound (`BYTE_UPPER_BOUND`), so the byte 255 never appears. -/
def byteUpperBound : Nat := 255

/-- A corpus of checked-in files: its name, the variable that overrides its place, and its usual
place relative to the project. -/
structure Corpus where
  /-- The name of the corpus, as messages give it. -/
  name : String
  /-- The environment variable that names another place. -/
  variableName : String
  /-- The place relative to the project that is used while the variable is unset or blank. -/
  usualPlace : String
  deriving DecidableEq

/-- The corpus of arrow files. -/
def arrowCorpus : Corpus := ⟨"arrow", "ARROW_TEST_DATA", "../testing/data"⟩

/-- The corpus of parquet files. -/
def parquetCorpus : Corpus := ⟨"parquet", "PARQUET_TEST_DATA", "../parquet-testing/data"⟩

/-- The names, outermost first, of the nested directories that hold scratch files
(`TEMP_DIR_PARTS`). -/
def scratchNames : List String := ["target", "debug", "testdata"]

/-- The version of the fixtures that was released, as it is known of an installed distribution. -/
def release : String := "0.1.0"

end Fixtures.Settings
