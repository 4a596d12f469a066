import Fixtures.Settings
import Fixtures.Text.Blank
import Fixtures.Text.Utf8

/-!
# Versions in manifests

The version of a project stands in its manifest, on a line that begins with the word `version`,
behind an equals sign and between double quotes. White space on either side of the sign counts for
nothing, and it may go on to other lines, as the version itself may. The first such place counts,
whatever comes before it. Line ends of all kinds are read as one.
-/

namespace Fixtures.Manifest

/-- The name of a manifest. -/
def fileName : String := "pyproject.toml"

/-- Why no version is read. -/
inductive Failure where
  /-- There is no manifest. -/
  | missing
  /-- The manifest is not UTF-8. -/
  | badEncoding (fault : Text.Utf8.Fault)
  /-- The manifest states no version. -/
  | noVersion
  deriving DecidableEq

/-- The message of a failure, unless it is the file system's. -/
def Failure.message : Failure → String
  | .missing => ""
  | .badEncoding fault => fault.message
  | .noVersion => "version not found in " ++ fileName

/-- Characters in which each line ends with a line feed alone. -/
def unifyLines : List Char → List Char
  | [] => []
  | '\r' :: '\n' :: rest => '\n' :: unifyLines rest
  | c :: rest => (if c = '\r' then '\n' else c) :: unifyLines rest

/-- What follows a beginning. -/
def after? : List Char → List Char → Option (List Char)
  | [], cs => some cs
  | _ :: _, [] => none
  | b :: beginning, c :: cs => if b = c then after? beginning cs else none

/-- What stands between a double quote at the front and the next one, if it is not empty. -/
def quoted? (cs : List Char) : Option (List Char) := do
  let body ← after? ['"'] cs
  let value := body.takeWhile (· != '"')
  if value.isEmpty || body.length = value.length then none else some value

/-- The version that is stated at the front. -/
def versionHere? (cs : List Char) : Option (List Char) := do
  let rest ← after? "version".toList cs
  let rest ← after? ['='] (rest.dropWhile Text.isBlank)
  quoted? (rest.dropWhile Text.isBlank)

/-- The first version that is stated at the beginning of a line. -/
def firstVersion? : (atLineStart : Bool) → List Char → Option (List Char)
  | _, [] => none
  | atLineStart, c :: rest =>
    match if atLineStart then versionHere? (c :: rest) else none with
    | some version => some version
    | none => firstVersion? (c == '\n') rest

/-- Reads the version from the content of a manifest, if there is one (`_read_version`). -/
def readVersion (content : Option (List UInt8)) : Except Failure String :=
  match content with
  | none => .error .missing
  | some bytes =>
    match Text.Utf8.decode bytes with
    | .error fault => .error (.badEncoding fault)
    | .ok cs =>
      match firstVersion? true (unifyLines cs) with
      | some version => .ok (String.ofList version)
      | none => .error .noVersion

/-- The version of the fixtures (`__version__`): the one that was released, where they are
installed, or else the one that their manifest states. -/
def version (isInstalled : Bool) (content : Option (List UInt8)) : Except Failure String :=
  if isInstalled then .ok Settings.release else readVersion content

end Fixtures.Manifest
