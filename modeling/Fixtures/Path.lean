/-!
# Paths

A path is an anchor and a list of parts. Reading a path from a text drops empty and `.` parts and
slashes at the end and keeps `..`, which only a file tree can resolve. Exactly two slashes at the
front are an anchor of their own; three or more count as one.
-/

namespace Fixtures

/-- The pieces of a sequence of characters between its slashes. -/
def splitSlashes : List Char → List (List Char)
  | [] => [[]]
  | c :: cs =>
    if c = '/' then [] :: splitSlashes cs
    else match splitSlashes cs with
      | [] => [[c]]
      | piece :: rest => (c :: piece) :: rest

/-- Splitting leaves at least one piece. -/
theorem splitSlashes_ne_nil (cs : List Char) : splitSlashes cs ≠ [] := by
  cases cs with
  | nil => simp [splitSlashes]
  | cons c cs =>
    simp only [splitSlashes]
    split
    · simp
    · split <;> simp

/-- No piece holds a slash. -/
theorem slash_not_mem_of_mem_splitSlashes {cs piece : List Char}
    (h : piece ∈ splitSlashes cs) : '/' ∉ piece := by
  induction cs generalizing piece with
  | nil => simp_all [splitSlashes]
  | cons c cs ih =>
    simp only [splitSlashes] at h
    split at h
    · rcases List.mem_cons.mp h with rfl | h
      · simp
      · exact ih h
    · rename_i hc
      cases hs : splitSlashes cs with
      | nil => exact absurd hs (splitSlashes_ne_nil cs)
      | cons first rest =>
        rw [hs] at h ih
        rcases List.mem_cons.mp h with rfl | h
        · have := ih (List.mem_cons_self ..)
          simp only [List.mem_cons, not_or]
          exact ⟨fun e => hc e.symm, this⟩
        · exact ih (List.mem_cons_of_mem _ h)

namespace Path

/-- How a path begins. -/
inductive Anchor where
  /-- From the working directory. -/
  | relative
  /-- From the root, with one slash. -/
  | root
  /-- From the root, with two slashes. -/
  | doubleRoot
  deriving DecidableEq, Inhabited

/-- The anchor of a text, by the number of its leading slashes. -/
def Anchor.ofChars : List Char → Anchor
  | '/' :: '/' :: '/' :: _ => .root
  | '/' :: '/' :: _ => .doubleRoot
  | '/' :: _ => .root
  | _ => .relative

/-- The slashes of an anchor. -/
def Anchor.chars : Anchor → List Char
  | .relative => []
  | .root => ['/']
  | .doubleRoot => ['/', '/']

/-- A part of a path is not empty, is not `.`, and holds no slash. -/
def IsPart (part : String) : Prop :=
  part ≠ "" ∧ part ≠ "." ∧ '/' ∉ part.toList

instance (part : String) : Decidable (IsPart part) :=
  inferInstanceAs (Decidable (_ ∧ _))

end Path

/-- A path in normal form. -/
structure Path where
  /-- How the path begins. -/
  anchor : Path.Anchor
  /-- The names on the way, and `..` for the way back. -/
  parts : List String
  /-- There is nothing among the parts that reading would drop or split. -/
  isPart_of_mem : ∀ part ∈ parts, Path.IsPart part
  deriving DecidableEq

namespace Path

/-- The parts of a text: its pieces between slashes, except the empty ones and `.`. -/
def partsOfChars (cs : List Char) : List String :=
  ((splitSlashes cs).map String.ofList).filter fun part => part != "" && part != "."

/-- What is left of the pieces are parts. -/
theorem isPart_of_mem_partsOfChars {cs : List Char} {part : String}
    (h : part ∈ partsOfChars cs) : IsPart part := by
  simp only [partsOfChars, List.mem_filter, List.mem_map, Bool.and_eq_true, bne_iff_ne] at h
  obtain ⟨⟨piece, hpiece, rfl⟩, hempty, hdot⟩ := h
  exact ⟨hempty, hdot, by simpa using slash_not_mem_of_mem_splitSlashes hpiece⟩

/-- Reads a path from a text. -/
def ofText (text : String) : Path where
  anchor := .ofChars text.toList
  parts := partsOfChars text.toList
  isPart_of_mem := fun _ h => isPart_of_mem_partsOfChars h

/-- The parts with slashes between them. -/
def joinParts : List String → List Char
  | [] => []
  | [part] => part.toList
  | part :: rest => part.toList ++ '/' :: joinParts rest

/-- The text of a path. The empty path is `.`. -/
def toText (path : Path) : String :=
  let cs := path.anchor.chars ++ joinParts path.parts
  if cs.isEmpty then "." else String.ofList cs

/-- A path that is taken from another one. One with an anchor of its own stands alone. -/
def join (base path : Path) : Path :=
  match path.anchor with
  | .relative =>
    { anchor := base.anchor
      parts := base.parts ++ path.parts
      isPart_of_mem := fun part h => (List.mem_append.mp h).elim (base.isPart_of_mem part)
        (path.isPart_of_mem part) }
  | .root | .doubleRoot => path

/-- A path with an anchor of its own is taken from nowhere else. -/
theorem join_of_anchor {path : Path} (h : path.anchor ≠ .relative) (base : Path) :
    base.join path = path := by
  unfold join
  cases hanchor : path.anchor with
  | relative => exact absurd hanchor h
  | root => rfl
  | doubleRoot => rfl

/-- The path without its last part. -/
def parent (path : Path) : Path where
  anchor := path.anchor
  parts := path.parts.dropLast
  isPart_of_mem := fun part h => path.isPart_of_mem part (List.dropLast_subset _ h)

end Path

end Fixtures
