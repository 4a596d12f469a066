import Fixtures.Proofs.Manifest

/-!
# The ends of lines in a manifest

The lines of a manifest may end with a line feed, with a carriage return, or with both. A text that
holds no carriage return is the same manifest whichever of them its lines are stored with: it states
the same version, or it states none.
-/

namespace Fixtures.Manifest

open Text

/-- What the lines of a stored text end with. -/
inductive LineEnd where
  /-- A line feed. -/
  | feed
  /-- A carriage return and a line feed. -/
  | returnFeed
  /-- A carriage return. -/
  | carriageReturn
  deriving DecidableEq

/-- The characters that end a line. -/
def LineEnd.chars : LineEnd → List Char
  | .feed => ['\n']
  | .returnFeed => ['\r', '\n']
  | .carriageReturn => ['\r']

/-- A text whose lines end so, in place of the line feeds. -/
def LineEnd.endLines (ending : LineEnd) (text : List Char) : List Char :=
  text.flatMap fun c => if c = '\n' then ending.chars else [c]

/-! ## Line ends are put in -/

section EndLines

variable (ending : LineEnd) (c : Char) (rest : List Char)

/-- In the place of a line feed stands the line end. -/
theorem endLines_feed_cons :
    ending.endLines ('\n' :: rest) = ending.chars ++ ending.endLines rest := by
  simp [LineEnd.endLines]

/-- Any other character stays. -/
theorem endLines_cons_of_ne (h : c ≠ '\n') :
    ending.endLines (c :: rest) = c :: ending.endLines rest := by
  simp [LineEnd.endLines, h]

end EndLines

/-- Line feeds in the place of line feeds change nothing. -/
theorem endLines_feed (text : List Char) : LineEnd.feed.endLines text = text := by
  induction text with
  | nil => rfl
  | cons c rest ih =>
    by_cases hc : c = '\n'
    · rw [hc, endLines_feed_cons, ih]
      rfl
    · rw [endLines_cons_of_ne _ _ _ hc, ih]

/-- Where lines end with a carriage return there is no line feed. -/
theorem feed_not_mem_endLines (text : List Char) :
    '\n' ∉ LineEnd.carriageReturn.endLines text := by
  intro hmem
  obtain ⟨c, _, hc⟩ := List.mem_flatMap.mp hmem
  split at hc
  · cases List.mem_singleton.mp hc
  · rename_i hne
    exact hne (List.mem_singleton.mp hc).symm

/-! ## Line ends are undone -/

section UnifyLines

variable {c : Char} {rest : List Char}

/-- A character that is no carriage return stays. -/
theorem unifyLines_cons_of_ne (h : c ≠ '\r') : unifyLines (c :: rest) = c :: unifyLines rest := by
  cases rest with
  | nil => simp [unifyLines, h]
  | cons next rest => simp [unifyLines, h]

/-- A carriage return that no line feed follows becomes one. -/
theorem unifyLines_return_cons (h : rest.head? ≠ some '\n') :
    unifyLines ('\r' :: rest) = '\n' :: unifyLines rest := by
  cases rest with
  | nil => rfl
  | cons next rest =>
    have hnext : next ≠ '\n' := fun heq => h (congrArg some heq)
    simp [unifyLines, hnext]

/-- A line end becomes a line feed, unless it is a carriage return and a line feed follows. -/
theorem unifyLines_chars_append (ending : LineEnd)
    (h : ending = .carriageReturn → rest.head? ≠ some '\n') :
    unifyLines (ending.chars ++ rest) = '\n' :: unifyLines rest := by
  cases ending with
  | feed => exact unifyLines_cons_of_ne (by decide)
  | returnFeed => rfl
  | carriageReturn => exact unifyLines_return_cons (h rfl)

end UnifyLines

/-- **Line ends are undone.** A text without a carriage return is read again, whatever its lines are
stored with. -/
theorem unifyLines_endLines (ending : LineEnd) {text : List Char} (h : '\r' ∉ text) :
    unifyLines (ending.endLines text) = text := by
  induction text with
  | nil => rfl
  | cons c rest ih =>
    obtain ⟨hc, hrest⟩ := not_or.mp fun hmem => h (List.mem_cons.mpr hmem)
    by_cases hfeed : c = '\n'
    · -- Between two line ends that are carriage returns no line feed is taken for a part of one.
      have hhead : ending = .carriageReturn → (ending.endLines rest).head? ≠ some '\n' := by
        rintro rfl hhead
        exact feed_not_mem_endLines rest (List.mem_of_mem_head? hhead)
      rw [hfeed, endLines_feed_cons, unifyLines_chars_append ending hhead, ih hrest]
    · rw [endLines_cons_of_ne _ _ _ hfeed, unifyLines_cons_of_ne (Ne.symm hc), ih hrest]

/-! ## Reading a manifest -/

/-- **The ends of lines do not matter.** What is read from a manifest without a carriage return is
the same whatever its lines are stored with: the version of the first place in the text that states
one, or the refusal of a text that states none. -/
theorem readVersion_endLines {text : List Char} (h : '\r' ∉ text) (ending : LineEnd) :
    readVersion (some (Utf8.encode (ending.endLines text))) =
        readVersion (some (Utf8.encode text)) ∧
      (∀ version, readVersion (some (Utf8.encode (ending.endLines text))) = .ok version ↔
        FirstStates true text version.toList) ∧
      (readVersion (some (Utf8.encode (ending.endLines text))) = .error .noVersion ↔
        ∀ place value, ¬ StatesAt true text place value) := by
  have hended := unifyLines_endLines ending h
  have hplain : unifyLines text = text := by
    have hfeed := unifyLines_endLines .feed h
    rwa [endLines_feed] at hfeed
  obtain ⟨_, hversion, hnone⟩ := readVersion_eq_first (ending.endLines text)
  rw [hended] at hversion hnone
  refine ⟨?_, hversion, hnone⟩
  rw [readVersion_encode, readVersion_encode, hended, hplain]

/-- A sign and a value that go over line ends, between empty lines: the version is the same with
carriage returns. -/
theorem readVersion_endLines_in_value :
    let text := "\n\nversion =\n\n \"1\n\n2\"\n".toList
    '\r' ∉ text ∧
      readVersion (some (Utf8.encode (LineEnd.carriageReturn.endLines text))) =
        .ok "1\n\n2" ∧
      readVersion (some (Utf8.encode (LineEnd.returnFeed.endLines text))) = .ok "1\n\n2" := by
  intro text
  have hreturn : '\r' ∉ text := by decide
  have hplain : readVersion (some (Utf8.encode text)) = .ok "1\n\n2" := by
    rw [readVersion_encode]
    decide +kernel
  exact ⟨hreturn, (readVersion_endLines hreturn .carriageReturn).1.trans hplain,
    (readVersion_endLines hreturn .returnFeed).1.trans hplain⟩

end Fixtures.Manifest
