import Fixtures.Proofs.Manifest

/-!
# The version of the project

A manifest is made of lines, some of which open a table. The version of the project stands on one
line of the project's table. No line behind it matters to what is read, but the lines before it do,
whatever table they belong to: the version of the project is read if no version is stated above it,
and if one is, that one is read in its place.
-/

namespace Fixtures.Manifest

open Text

/-! ## Lines -/

/-- Lines with a line feed behind each. -/
def endedLines (lines : List (List Char)) : List Char :=
  lines.flatMap (· ++ ['\n'])

/-- Lines with line feeds between them. -/
def joinLines : List (List Char) → List Char
  | [] => []
  | [line] => line
  | line :: rest => line ++ '\n' :: joinLines rest

/-- Of lines with line feeds between them those above a line are ended. -/
theorem joinLines_append_cons (front : List (List Char)) (line : List Char)
    (back : List (List Char)) :
    ∃ rest, joinLines (front ++ line :: back) = endedLines front ++ line ++ rest := by
  induction front with
  | nil =>
    cases back with
    | nil => exact ⟨[], by simp [joinLines, endedLines]⟩
    | cons next back => exact ⟨'\n' :: joinLines (next :: back), rfl⟩
  | cons first front ih =>
    obtain ⟨rest, hrest⟩ := ih
    refine ⟨rest, ?_⟩
    have hjoin : joinLines (first :: (front ++ line :: back)) =
        first ++ '\n' :: joinLines (front ++ line :: back) := by
      cases front <;> rfl
    rw [List.cons_append, hjoin, hrest]
    simp [endedLines]

/-- Behind lines that are ended a line begins. -/
theorem isLineStart_endedLines (front : List (List Char)) (rest : List Char) :
    IsLineStart true (endedLines front ++ rest) (endedLines front).length := by
  rcases List.eq_nil_or_concat front with rfl | ⟨front, line, rfl⟩
  · rfl
  · have hended : endedLines (front ++ [line]) = endedLines front ++ line ++ ['\n'] := by
      simp [endedLines]
    rw [List.concat_eq_append, hended, List.length_append, List.length_singleton, IsLineStart]
    simp

/-- What a line and the text behind it state is stated at the front of the line, or in the text
behind it. -/
theorem statesAt_line {atLineStart : Bool} {line rest value : List Char} {place : Nat}
    (hline : '\n' ∉ line) (h : StatesAt atLineStart (line ++ '\n' :: rest) place value) :
    (place = 0 ∧ atLineStart = true ∧ StatesAtFront (line ++ '\n' :: rest) value) ∨
      ∃ behind, place = line.length + 1 + behind ∧ StatesAt true rest behind value := by
  induction line generalizing atLineStart place with
  | nil =>
    cases place with
    | zero => exact Or.inl ⟨rfl, h.isLineStart, h.statesAtFront⟩
    | succ behind => exact Or.inr ⟨behind, Nat.add_comm .., statesAt_succ_iff.mp h⟩
  | cons c line ih =>
    obtain ⟨hc, hrest⟩ := not_or.mp fun hmem => hline (List.mem_cons.mpr hmem)
    cases place with
    | zero => exact Or.inl ⟨rfl, h.isLineStart, h.statesAtFront⟩
    | succ place =>
      rcases ih hrest (statesAt_succ_iff.mp h) with ⟨_, hfeed, _⟩ | ⟨behind, rfl, hbehind⟩
      · exact absurd (beq_iff_eq.mp hfeed).symm hc
      · refine Or.inr ⟨behind, ?_, hbehind⟩
        rw [List.length_cons]
        omega

/-- A line that states a version at its front begins with the word. -/
theorem isPrefix_of_statesAtFront {line rest value : List Char}
    (h : StatesAtFront (line ++ '\n' :: rest) value) : "version".toList <+: line := by
  obtain ⟨blanks, blanks', behind, hform, _⟩ := h.form
  have hword : "version".toList <+: line ++ '\n' :: rest := hform ▸ List.prefix_append _ _
  rcases List.prefix_or_prefix_of_prefix hword (List.prefix_append line _) with hline | hshort
  · exact hline
  · -- Otherwise the line feed at the end of the line would be a letter of the word.
    obtain ⟨tail, htail⟩ := hshort
    rw [← htail, List.prefix_append_right_inj] at hword
    cases tail with
    | nil =>
      rw [List.append_nil] at htail
      exact ⟨[], (List.append_nil _).trans htail.symm⟩
    | cons c tail =>
      obtain ⟨rfl, _⟩ := List.cons_prefix_cons.mp hword
      have hmem : '\n' ∈ "version".toList := htail ▸ by simp
      exact absurd hmem (by decide)

/-- What is stated among lines that are ended is stated by a line that begins with the word. -/
theorem exists_line_of_statesAt {front : List (List Char)} {rest value : List Char} {place : Nat}
    (hlines : ∀ line ∈ front, '\n' ∉ line)
    (h : StatesAt true (endedLines front ++ rest) place value)
    (hplace : place < (endedLines front).length) : ∃ line ∈ front, "version".toList <+: line := by
  induction front generalizing place with
  | nil => exact absurd hplace (Nat.not_lt_zero place)
  | cons line front ih =>
    have hsplit : endedLines (line :: front) = line ++ '\n' :: endedLines front := by
      simp [endedLines]
    rw [hsplit, List.append_assoc, List.cons_append] at h
    rcases statesAt_line (hlines line List.mem_cons_self) h with
      ⟨_, _, hfront⟩ | ⟨behind, rfl, hbehind⟩
    · exact ⟨line, List.mem_cons_self, isPrefix_of_statesAtFront hfront⟩
    · rw [hsplit, List.length_append, List.length_cons] at hplace
      obtain ⟨other, hother, hword⟩ := ih
        (fun other hother => hlines other (List.mem_cons_of_mem _ hother)) hbehind (by omega)
      exact ⟨other, List.mem_cons_of_mem _ hother, hword⟩

/-! ## What is behind a version does not matter -/

/-- What is stated at the front ends with the second double quote; nothing behind that matters. -/
theorem statesAtFront_append_iff {cs rest value : List Char} (hquotes : 2 ≤ cs.count '"') :
    StatesAtFront (cs ++ rest) value ↔ StatesAtFront cs value := by
  constructor
  · rintro ⟨⟨blanks, blanks', behind, hform, hblanks, hblanks'⟩, hne, hquote⟩
    have hblank : ('"' : Char) ∉ blanks := fun hmem => absurd (hblanks _ hmem) (by decide)
    have hblank' : ('"' : Char) ∉ blanks' := fun hmem => absurd (hblanks' _ hmem) (by decide)
    generalize hopening : "version".toList ++ (blanks ++ '=' :: (blanks' ++ '"' :: value)) = opening
    have hone : opening.count '"' = 1 := by
      rw [← hopening]
      simp [List.count_eq_zero.mpr hblank, List.count_eq_zero.mpr hblank',
        List.count_eq_zero.mpr hquote]
    have hsplit : cs ++ rest = opening ++ '"' :: behind := by
      rw [hform, ← hopening]
      simp
    -- One double quote is not enough for the characters to end before the second one.
    have hopened : opening <+: cs := by
      have hwhole : opening <+: cs ++ rest := hsplit ▸ List.prefix_append _ _
      rcases List.prefix_or_prefix_of_prefix hwhole (List.prefix_append cs rest) with hle | hge
      · exact hle
      · have hfew := hge.sublist.count_le '"'
        omega
    obtain ⟨tail, rfl⟩ := hopened
    rw [List.append_assoc, List.append_cancel_left_eq] at hsplit
    cases tail with
    | nil =>
      rw [List.append_nil] at hquotes
      omega
    | cons c tail =>
      rw [List.cons_append, List.cons.injEq] at hsplit
      obtain ⟨rfl, _⟩ := hsplit
      exact ⟨⟨blanks, blanks', tail, by rw [← hopening]; simp, hblanks, hblanks'⟩, hne, hquote⟩
  · rintro ⟨⟨blanks, blanks', behind, rfl, hblanks, hblanks'⟩, hne, hquote⟩
    exact ⟨⟨blanks, blanks', behind ++ rest, by simp, hblanks, hblanks'⟩, hne, hquote⟩

section Behind

variable {front line rest value : List Char} {place : Nat} (hquotes : 2 ≤ line.count '"')

include hquotes

/-- Up to a line with two double quotes, what is stated does not depend on what is behind it. -/
theorem statesAt_append_iff (hplace : place ≤ front.length) :
    StatesAt true (front ++ line ++ rest) place value ↔
      StatesAt true (front ++ line) place value := by
  have hstart : IsLineStart true (front ++ line ++ rest) place ↔
      IsLineStart true (front ++ line) place := by
    cases place with
    | zero => rfl
    | succ before =>
      have hlt : before < (front ++ line).length := by
        rw [List.length_append]
        omega
      rw [IsLineStart, IsLineStart, List.getElem?_append_left hlt]
  have hfront : StatesAtFront ((front ++ line ++ rest).drop place) value ↔
      StatesAtFront ((front ++ line).drop place) value := by
    rw [List.drop_append_of_le_length (by rw [List.length_append]; omega)]
    refine statesAtFront_append_iff (hquotes.trans ?_)
    rw [List.drop_append_of_le_length hplace, List.count_append]
    exact Nat.le_add_left _ _
  exact ⟨fun h => ⟨hstart.mp h.isLineStart, hfront.mp h.statesAtFront⟩,
    fun h => ⟨hstart.mpr h.isLineStart, hfront.mpr h.statesAtFront⟩⟩

/-- Behind a line that states a version no first place is looked for. -/
theorem firstStates_append_iff {stated : List Char}
    (hstated : StatesAt true (front ++ line) front.length stated) :
    FirstStates true (front ++ line ++ rest) value ↔ FirstStates true (front ++ line) value := by
  have hwhole : StatesAt true (front ++ line ++ rest) front.length stated :=
    (statesAt_append_iff hquotes (Nat.le_refl _)).mpr hstated
  constructor
  · rintro ⟨place, hplace, hfirst⟩
    have hle := hfirst _ _ hwhole
    refine ⟨place, (statesAt_append_iff hquotes hle).mp hplace, fun other value' hother => ?_⟩
    rcases Nat.le_total other front.length with hbefore | hbehind
    · exact hfirst other value' ((statesAt_append_iff hquotes hbefore).mpr hother)
    · exact hle.trans hbehind
  · rintro ⟨place, hplace, hfirst⟩
    have hle := hfirst _ _ hstated
    refine ⟨place, (statesAt_append_iff hquotes hle).mpr hplace, fun other value' hother => ?_⟩
    rcases Nat.le_total other front.length with hbefore | hbehind
    · exact hfirst other value' ((statesAt_append_iff hquotes hbefore).mp hother)
    · exact hle.trans hbehind

end Behind

/-! ## The table of the project -/

/-- The line that opens the table of the project. -/
def header : List Char :=
  "[project]".toList

/-- The line that gives a version to the table it is in. -/
def versionLine (version : List Char) : List Char :=
  "version = \"".toList ++ (version ++ ['"'])

/-- There is a blank on either side of the equals sign. -/
theorem versionLine_eq (version : List Char) : versionLine version =
    "version".toList ++ ([' '] ++ '=' :: ([' '] ++ '"' :: (version ++ ['"']))) := by
  have hword : "version = \"".toList = "version".toList ++ [' ', '=', ' ', '"'] := by decide
  unfold versionLine
  rw [hword, List.append_assoc]
  simp only [List.cons_append, List.nil_append]

/-- There is a double quote on either side of the version. -/
theorem two_le_count_versionLine (version : List Char) : 2 ≤ (versionLine version).count '"' := by
  unfold versionLine
  simp

/-- The line gives a version to the table it is in. -/
def IsVersionLine (line : List Char) : Prop :=
  ∃ version, version ≠ [] ∧ '"' ∉ version ∧ line = versionLine version

/-- Such a line begins with the word, the sign and the double quote. -/
theorem IsVersionLine.isPrefix {line : List Char} (h : IsVersionLine line) :
    "version = \"".toList <+: line := by
  obtain ⟨version, _, _, rfl⟩ := h
  exact List.prefix_append _ _

/-- The lines of a manifest, around the one that gives its version to the project. -/
structure Layout where
  /-- The lines before the table of the project. -/
  before : List (List Char)
  /-- The lines of the table above the version. -/
  above : List (List Char)
  /-- The version. -/
  version : List Char
  /-- The lines of the table below the version. -/
  below : List (List Char)
  /-- The lines behind the table. -/
  after : List (List Char)

namespace Layout

/-- The lines above the version of the project. -/
def front (l : Layout) : List (List Char) :=
  l.before ++ header :: l.above

/-- All lines. -/
def lines (l : Layout) : List (List Char) :=
  l.front ++ versionLine l.version :: (l.below ++ l.after)

/-- The characters of the lines down to the version of the project. -/
def charsToVersion (l : Layout) : List Char :=
  endedLines l.front ++ versionLine l.version

/-- There is one table of the project, which goes on to the next line that opens a table, and it is
given one version. -/
structure IsProject (l : Layout) : Prop where
  /-- A line ends at the first line feed. -/
  feed_not_mem : ∀ line ∈ l.lines, '\n' ∉ line
  /-- No other line opens the table of the project. -/
  header_not_mem : header ∉ l.before ++ l.above ++ l.below ++ l.after
  /-- No line of the table opens a table. -/
  inTable : ∀ line ∈ l.above ++ l.below, line.head? ≠ some '['
  /-- The line behind the table opens a table. -/
  closed : ∀ line ∈ l.after.head?, line.head? = some '['
  /-- No other line of the table gives it a version. -/
  version_once : ∀ line ∈ l.above ++ l.below, ¬ IsVersionLine line
  /-- The version is not empty. -/
  version_ne_nil : l.version ≠ []
  /-- There is no double quote in the version. -/
  quote_not_mem : '"' ∉ l.version

/-- The line of the version states it. -/
theorem IsProject.statesAt {l : Layout} (h : l.IsProject) :
    StatesAt true l.charsToVersion (endedLines l.front).length l.version where
  isLineStart := isLineStart_endedLines l.front _
  statesAtFront := by
    have hblank : ∀ c ∈ [' '], isBlank c = true := List.forall_mem_singleton.mpr (by decide)
    rw [charsToVersion, List.drop_left]
    exact ⟨⟨[' '], [' '], [], versionLine_eq l.version, hblank, hblank⟩, h.version_ne_nil,
      h.quote_not_mem⟩

end Layout

/-- **The version of the project.** A manifest in whose lines the project's table is given one
version is never refused. What is read from it is what the first place states in the lines down to
that version; no line behind it matters, of this table or of another one. So the version of the
project is read if no place above it states one, and in particular if no line above it begins with
the word. -/
theorem readVersion_of_project {l : Layout} (h : l.IsProject) {text : List Char}
    (htext : unifyLines text = joinLines l.lines) :
    (∃ version, readVersion (some (Utf8.encode text)) = .ok version) ∧
    (∀ version, readVersion (some (Utf8.encode text)) = .ok version ↔
      FirstStates true l.charsToVersion version.toList) ∧
    ((∀ place < (endedLines l.front).length, ∀ value,
        ¬ StatesAt true l.charsToVersion place value) →
      readVersion (some (Utf8.encode text)) = .ok (String.ofList l.version)) ∧
    ((∀ line ∈ l.before ++ l.above, ¬ "version".toList <+: line) →
      readVersion (some (Utf8.encode text)) = .ok (String.ofList l.version)) := by
  have hstates := h.statesAt
  have hquotes := two_le_count_versionLine l.version
  have hread (version : String) : readVersion (some (Utf8.encode text)) = .ok version ↔
      FirstStates true l.charsToVersion version.toList := by
    obtain ⟨rest, hrest⟩ := joinLines_append_cons l.front (versionLine l.version)
      (l.below ++ l.after)
    rw [(readVersion_eq_first text).2.1, htext, Layout.lines, hrest]
    exact firstStates_append_iff hquotes hstates
  have hfirst (hnone : ∀ place < (endedLines l.front).length, ∀ value,
      ¬ StatesAt true l.charsToVersion place value) :
      readVersion (some (Utf8.encode text)) = .ok (String.ofList l.version) := by
    rw [hread, String.toList_ofList]
    exact ⟨_, hstates, fun place value hplace =>
      Nat.le_of_not_lt fun hlt => hnone place hlt value hplace⟩
  refine ⟨?_, hread, hfirst, fun hwords => hfirst fun place hplace value hstated => ?_⟩
  · obtain ⟨value, hvalue⟩ := exists_firstStates hstates
    refine ⟨String.ofList value, ?_⟩
    rwa [hread, String.toList_ofList]
  · have hlines : ∀ line ∈ l.front, '\n' ∉ line := fun line hline =>
      h.feed_not_mem line (List.mem_append_left _ hline)
    obtain ⟨line, hline, hword⟩ := exists_line_of_statesAt hlines hstated hplace
    rw [Layout.front, List.mem_append, List.mem_cons] at hline
    rcases hline with hbefore | rfl | habove
    · exact hwords line (List.mem_append_left _ hbefore) hword
    · exact absurd hword (by decide)
    · exact hwords line (List.mem_append_right _ habove) hword

/-- A manifest whose lines end in two ways: a key that ends with the word is above the version of
the project, and another table has a version behind it. -/
theorem readVersion_of_project_before_tool :
    let l : Layout := ⟨["[tool.fixtures]".toList, "target-version = \"3\"".toList],
      ["name = \"fixtures\"".toList], "0.1.0".toList, ["".toList],
      ["[tool.other]".toList, "version = \"9\"".toList, "".toList]⟩
    let text :=
      "[tool.fixtures]\r\ntarget-version = \"3\"\n[project]\r\nname = \"fixtures\"\n".toList ++
        "version = \"0.1.0\"\r\n\n[tool.other]\nversion = \"9\"\n".toList
    l.IsProject ∧ unifyLines text = joinLines l.lines ∧
      readVersion (some (Utf8.encode text)) = .ok "0.1.0" := by
  intro l text
  have hother : ∀ line ∈ l.above ++ l.below, ¬ "version = \"".toList <+: line := by decide
  have hproject : l.IsProject := {
    feed_not_mem := by decide
    header_not_mem := by decide
    inTable := by decide
    closed := by decide
    version_once := fun line hline hversion => hother line hline hversion.isPrefix
    version_ne_nil := by decide
    quote_not_mem := by decide }
  have htext : unifyLines text = joinLines l.lines := by decide
  exact ⟨hproject, htext, (readVersion_of_project hproject htext).2.2.2 (by decide)⟩

/-- A version that another table is given above the table of the project is read in the place of the
version of the project. -/
theorem readVersion_of_tool_before_project :
    let l : Layout := ⟨["[tool.fixtures]".toList, "version = \"2\"".toList], [], ['1'], [], []⟩
    let text := joinLines l.lines
    l.IsProject ∧ unifyLines text = joinLines l.lines ∧
      readVersion (some (Utf8.encode text)) = .ok "2" ∧
      readVersion (some (Utf8.encode text)) ≠ .ok (String.ofList l.version) := by
  intro l text
  have hproject : l.IsProject := {
    feed_not_mem := by decide
    header_not_mem := by decide
    inTable := by decide
    closed := by decide
    version_once := fun line hline => absurd hline List.not_mem_nil
    version_ne_nil := by decide
    quote_not_mem := by decide }
  have hread : readVersion (some (Utf8.encode text)) = .ok "2" := by
    rw [readVersion_encode]
    decide +kernel
  refine ⟨hproject, by decide, hread, ?_⟩
  rw [hread]
  decide

end Fixtures.Manifest
