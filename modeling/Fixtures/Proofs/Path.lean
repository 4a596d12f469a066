import Fixtures.Path
import Mathlib.Data.String.Basic

/-!
# The text of a path

Reading a path from its own text gives the path back, so a text and the text of its path stand for
one path. The text of a path is never longer than a text it was read from: reading only drops
characters.
-/

namespace Fixtures

/-- Characters without a slash are one piece. -/
theorem splitSlashes_of_not_mem {cs : List Char} (h : '/' ∉ cs) : splitSlashes cs = [cs] := by
  induction cs with
  | nil => rfl
  | cons c cs ih =>
    simp only [List.mem_cons, not_or] at h
    rw [splitSlashes, if_neg (Ne.symm h.1), ih h.2]

/-- The piece before the first slash is the first piece. -/
theorem splitSlashes_append_slash {piece : List Char} (h : '/' ∉ piece) (cs : List Char) :
    splitSlashes (piece ++ '/' :: cs) = piece :: splitSlashes cs := by
  induction piece with
  | nil => simp [splitSlashes]
  | cons c piece ih =>
    simp only [List.mem_cons, not_or] at h
    rw [List.cons_append, splitSlashes, if_neg (Ne.symm h.1), ih h.2]

/-- The pieces with slashes between them are what was split. -/
theorem intercalate_splitSlashes (cs : List Char) :
    ['/'].intercalate (splitSlashes cs) = cs := by
  induction cs with
  | nil => rfl
  | cons c cs ih =>
    rw [splitSlashes]
    cases hpieces : splitSlashes cs with
    | nil => exact absurd hpieces (splitSlashes_ne_nil cs)
    | cons piece rest =>
      rw [hpieces] at ih
      by_cases hc : c = '/'
      · subst hc
        simp only [if_true, List.intercalate_cons_cons, ih]
        rfl
      · simp only [if_neg hc]
        rw [← ih]
        cases rest with
        | nil => simp
        | cons second rest => simp only [List.intercalate_cons_cons]; rfl

namespace Path

/-- A slash in front begins no part. -/
theorem partsOfChars_slash (cs : List Char) : partsOfChars ('/' :: cs) = partsOfChars cs := by
  simp [partsOfChars, splitSlashes]

/-- The characters of the first part are followed by a slash where there is another one. -/
theorem joinParts_cons {part : String} {rest : List String} (h : rest ≠ []) :
    joinParts (part :: rest) = part.toList ++ '/' :: joinParts rest := by
  cases rest with
  | nil => exact absurd rfl h
  | cons second rest => rfl

/-- Parts with slashes between them are read as these parts. -/
theorem partsOfChars_joinParts {parts : List String} (h : ∀ part ∈ parts, IsPart part) :
    partsOfChars (joinParts parts) = parts := by
  induction parts with
  | nil => rfl
  | cons part rest ih =>
    simp only [List.mem_cons, forall_eq_or_imp] at h
    obtain ⟨⟨hempty, hdot, hslash⟩, hrest⟩ := h
    have hkept : (part != "" && part != ".") = true := by simp [hempty, hdot]
    by_cases hnil : rest = []
    · subst hnil
      simp [partsOfChars, joinParts, splitSlashes_of_not_mem hslash, hempty, hdot]
    · have hparts := ih hrest
      unfold partsOfChars at hparts ⊢
      rw [joinParts_cons hnil, splitSlashes_append_slash hslash, List.map_cons,
        String.ofList_toList]
      simp only [List.filter_cons, hkept, if_true, hparts]

/-- The text of parts does not begin with a slash. -/
theorem head?_joinParts_ne {parts : List String} (h : ∀ part ∈ parts, IsPart part) :
    (joinParts parts).head? ≠ some '/' := by
  cases parts with
  | nil => simp [joinParts]
  | cons part rest =>
    obtain ⟨hempty, _, hslash⟩ := h part List.mem_cons_self
    have hhead : part.toList.head? ≠ some '/' := fun hhead =>
      hslash (List.mem_of_mem_head? hhead)
    have hne : part.toList ≠ [] := by simpa using hempty
    by_cases hnil : rest = []
    · subst hnil
      exact hhead
    · rw [joinParts_cons hnil, List.head?_append_of_ne_nil _ hne]
      exact hhead

/-- A text has an anchor if it begins with a slash. -/
theorem Anchor.ofChars_eq_relative_iff (cs : List Char) :
    Anchor.ofChars cs = .relative ↔ cs.head? ≠ some '/' := by
  cases cs with
  | nil => simp [Anchor.ofChars]
  | cons c cs =>
    by_cases hc : c = '/'
    · subst hc
      unfold Anchor.ofChars
      split <;> simp_all
    · simp [Anchor.ofChars, hc]

/-- The slashes of an anchor are read as the anchor, unless another slash follows. -/
theorem Anchor.ofChars_append (anchor : Anchor) {cs : List Char} (h : cs.head? ≠ some '/') :
    Anchor.ofChars (anchor.chars ++ cs) = anchor := by
  cases cs with
  | nil => cases anchor <;> rfl
  | cons c cs =>
    have hc : c ≠ '/' := by simpa using h
    cases anchor <;> simp [Anchor.chars, Anchor.ofChars, hc]

/-- The slashes of an anchor begin no part. -/
theorem partsOfChars_append (anchor : Anchor) (cs : List Char) :
    partsOfChars (anchor.chars ++ cs) = partsOfChars cs := by
  cases anchor with
  | relative => rfl
  | root => exact partsOfChars_slash cs
  | doubleRoot => exact (partsOfChars_slash _).trans (partsOfChars_slash cs)

/-- The text of a path is never empty. -/
theorem toText_ne_empty (path : Path) : path.toText ≠ "" := by
  unfold toText
  cases path.anchor.chars ++ joinParts path.parts <;> simp

/-- Reading a path from its text gives the path back. -/
theorem ofText_toText (path : Path) : ofText path.toText = path := by
  obtain ⟨anchor, parts, hparts⟩ := path
  have hread : Anchor.ofChars (anchor.chars ++ joinParts parts) = anchor ∧
      partsOfChars (anchor.chars ++ joinParts parts) = parts :=
    ⟨anchor.ofChars_append (head?_joinParts_ne hparts), by
      rw [partsOfChars_append, partsOfChars_joinParts hparts]⟩
  unfold toText ofText
  cases hcs : anchor.chars ++ joinParts parts with
  | nil =>
    -- The empty path is written as a dot, which is no part.
    rw [hcs] at hread
    simp only [List.isEmpty_nil, if_true]
    exact Path.mk.injEq .. |>.mpr ⟨hread.1, hread.2⟩
  | cons c cs =>
    rw [hcs] at hread
    simp only [List.isEmpty_cons, Bool.false_eq_true, if_false, String.toList_ofList]
    exact Path.mk.injEq .. |>.mpr hread

/-- Where pieces are dropped and slashes are put between the others, characters are only lost. -/
theorem joinParts_filter_sublist (keeps : String → Bool) (pieces : List (List Char)) :
    (joinParts ((pieces.map String.ofList).filter keeps)).Sublist (['/'].intercalate pieces) := by
  induction pieces with
  | nil => exact .slnil
  | cons piece rest ih =>
    have hbehind : (['/'].intercalate rest).Sublist (['/'].intercalate (piece :: rest)) := by
      cases rest with
      | nil => exact List.nil_sublist _
      | cons second rest =>
        rw [List.intercalate_cons_cons]
        exact List.sublist_append_right _ _
    rw [List.map_cons, List.filter_cons]
    split
    · by_cases hnil : (rest.map String.ofList).filter keeps = []
      · rw [hnil]
        cases rest with
        | nil => simp [joinParts]
        | cons second rest =>
          rw [List.intercalate_cons_cons, List.append_assoc]
          rw [joinParts, String.toList_ofList]
          exact List.sublist_append_left piece _
      · cases rest with
        | nil => exact absurd rfl hnil
        | cons second rest =>
          rw [joinParts_cons hnil, List.intercalate_cons_cons, String.toList_ofList,
            List.append_assoc]
          exact (ih.cons_cons '/').append_left piece
    · exact ih.trans hbehind

/-- Reading the parts of a text only drops characters. -/
theorem joinParts_partsOfChars_sublist (cs : List Char) :
    (joinParts (partsOfChars cs)).Sublist cs := by
  have h := joinParts_filter_sublist (fun part => part != "" && part != ".") (splitSlashes cs)
  rwa [intercalate_splitSlashes] at h

/-- Reading the anchor and the parts of a text only drops characters. -/
theorem chars_ofChars_append_sublist (cs : List Char) :
    ((Anchor.ofChars cs).chars ++ joinParts (partsOfChars cs)).Sublist cs := by
  unfold Anchor.ofChars
  split
  · rw [partsOfChars_slash]
    exact (joinParts_partsOfChars_sublist _).cons_cons '/'
  · rw [partsOfChars_slash, partsOfChars_slash]
    exact ((joinParts_partsOfChars_sublist _).cons_cons '/').cons_cons '/'
  · rw [partsOfChars_slash]
    exact (joinParts_partsOfChars_sublist _).cons_cons '/'
  · exact joinParts_partsOfChars_sublist cs

/-- A text without an anchor and without parts begins with a dot, unless it is empty. -/
theorem dot_mem_of_no_parts {cs : List Char} (hne : cs ≠ [])
    (hanchor : Anchor.ofChars cs = .relative) (hparts : partsOfChars cs = []) : '.' ∈ cs := by
  obtain ⟨c, cs, rfl⟩ := List.exists_cons_of_ne_nil hne
  have hc : c ≠ '/' := by
    have hhead := (Anchor.ofChars_eq_relative_iff _).mp hanchor
    simpa using hhead
  -- The first piece is not empty, so it can only have been dropped as a dot.
  cases hpieces : splitSlashes cs with
  | nil => exact absurd hpieces (splitSlashes_ne_nil cs)
  | cons piece rest =>
    have hfirst : String.ofList (c :: piece) = "." := by
      simp only [partsOfChars, splitSlashes, if_neg hc, hpieces, List.map_cons,
        List.filter_eq_nil_iff, List.mem_cons, forall_eq_or_imp] at hparts
      simpa using hparts.1
    have hdot : c :: piece = ['.'] := by
      have h := congrArg String.toList hfirst
      rwa [String.toList_ofList] at h
    rw [(List.cons.inj hdot).1]
    exact List.mem_cons_self

/-- **Normal forms only drop characters.** The text of the path that a text is read as is what is
left of the text when some characters are dropped. -/
theorem toText_ofText_sublist {text : String} (hne : text ≠ "") :
    ((ofText text).toText).toList.Sublist text.toList := by
  have hsublist := chars_ofChars_append_sublist text.toList
  unfold toText ofText
  cases hcs : (Anchor.ofChars text.toList).chars ++ joinParts (partsOfChars text.toList) with
  | cons c cs =>
    rw [hcs] at hsublist
    simpa [hcs] using hsublist
  | nil =>
    obtain ⟨hslashes, hjoined⟩ := List.append_eq_nil_iff.mp hcs
    have hanchor : Anchor.ofChars text.toList = .relative := by
      cases ha : Anchor.ofChars text.toList <;> simp [ha, Anchor.chars] at hslashes ⊢
    have hparts : partsOfChars text.toList = [] := by
      have hread : partsOfChars (joinParts (partsOfChars text.toList)) = partsOfChars text.toList :=
        partsOfChars_joinParts fun _ h => isPart_of_mem_partsOfChars h
      rw [hjoined] at hread
      exact hread.symm
    have hdot := dot_mem_of_no_parts (by simpa using hne) hanchor hparts
    simpa [hcs] using hdot

/-- A part is read as the path that has it alone. -/
theorem ofText_of_isPart {part : String} (h : IsPart part) :
    (ofText part).anchor = .relative ∧ (ofText part).parts = [part] := by
  have hparts : ∀ other ∈ [part], IsPart other := by
    intro other hother
    rwa [List.mem_singleton.mp hother]
  constructor
  · exact (Anchor.ofChars_eq_relative_iff _).mpr (head?_joinParts_ne hparts)
  · exact partsOfChars_joinParts hparts

/-- The text of the path of a part is the part. -/
theorem toText_ofText_of_isPart {part : String} (h : IsPart part) :
    (ofText part).toText = part := by
  obtain ⟨hanchor, hparts⟩ := ofText_of_isPart h
  have hne : part.toList ≠ [] := by simpa using h.1
  simp [toText, hanchor, hparts, Anchor.chars, joinParts, hne]

/-! ## Paths from the root -/

/-- The text of the path from the root along names. -/
def rooted (names : List String) : String :=
  String.ofList ('/' :: joinParts names)

@[simp] theorem toList_rooted (names : List String) :
    (rooted names).toList = '/' :: joinParts names :=
  String.toList_ofList

/-- The text of a path with the root as its anchor. -/
theorem toText_of_root {path : Path} (h : path.anchor = .root) :
    path.toText = rooted path.parts := by
  simp [toText, h, Anchor.chars, rooted]

/-- The text of parts is in the text of these with one more in front. -/
theorem joinParts_sublist_cons (part : String) (rest : List String) :
    (joinParts rest).Sublist (joinParts (part :: rest)) := by
  by_cases hnil : rest = []
  · subst hnil
    exact List.nil_sublist _
  · rw [joinParts_cons hnil]
    exact (List.sublist_cons_self '/' _).trans (List.sublist_append_right part.toList _)

/-- Where parts are left out, characters are only lost. -/
theorem joinParts_sublist {kept parts : List String} (h : kept.Sublist parts) :
    (joinParts kept).Sublist (joinParts parts) := by
  induction h with
  | slnil => exact .slnil
  | cons part _ ih => exact ih.trans (joinParts_sublist_cons part _)
  | @cons_cons kept parts part hrest ih =>
    by_cases hparts : parts = []
    · obtain rfl : kept = [] := List.sublist_nil.mp (hparts ▸ hrest)
      rw [hparts]
    · rw [joinParts_cons hparts]
      by_cases hkept : kept = []
      · rw [hkept]
        exact List.sublist_append_left part.toList _
      · rw [joinParts_cons hkept]
        exact (ih.cons_cons '/').append_left part.toList

/-- The text of the first parts is no longer than that of all. -/
theorem utf8ByteSize_rooted_le {front names : List String} (h : front <+: names) :
    (rooted front).utf8ByteSize ≤ (rooted names).utf8ByteSize := by
  have hle := String.utf8Len_le_of_sublist ((joinParts_sublist h.sublist).cons_cons '/')
  rwa [← String.utf8ByteSize_ofList, ← String.utf8ByteSize_ofList] at hle

/-- The text of a path with an anchor of its own begins with the slashes of that anchor. -/
theorem toText_of_anchor {path : Path} (h : path.anchor ≠ .relative) :
    path.toText = String.ofList (path.anchor.chars ++ joinParts path.parts) := by
  have hne : path.anchor.chars ≠ [] := by
    cases hanchor : path.anchor with
    | relative => exact absurd hanchor h
    | root => simp [Anchor.chars]
    | doubleRoot => simp [Anchor.chars]
  simp [toText, hne]

/-- The text of a path with an anchor is no longer than one with more parts. -/
theorem utf8ByteSize_toText_le {path other : Path} (hanchor : path.anchor ≠ .relative)
    (hsame : other.anchor = path.anchor) (hparts : path.parts.Sublist other.parts) :
    path.toText.utf8ByteSize ≤ other.toText.utf8ByteSize := by
  rw [toText_of_anchor hanchor, toText_of_anchor (hsame ▸ hanchor), hsame,
    String.utf8ByteSize_ofList, String.utf8ByteSize_ofList]
  exact String.utf8Len_le_of_sublist ((joinParts_sublist hparts).append_left _)

/-- Parts with slashes between them are split into these parts. -/
theorem splitSlashes_joinParts {parts : List String} (h : ∀ part ∈ parts, IsPart part)
    (hne : parts ≠ []) : splitSlashes (joinParts parts) = parts.map String.toList := by
  induction parts with
  | nil => exact absurd rfl hne
  | cons part rest ih =>
    simp only [List.mem_cons, forall_eq_or_imp] at h
    obtain ⟨⟨_, _, hslash⟩, hrest⟩ := h
    by_cases hnil : rest = []
    · subst hnil
      exact splitSlashes_of_not_mem hslash
    · rw [joinParts_cons hnil, splitSlashes_append_slash hslash, ih hrest hnil, List.map_cons]

/-- The text of parts does not end in a slash. -/
theorem getLast?_joinParts_ne {parts : List String} (h : ∀ part ∈ parts, IsPart part) :
    (joinParts parts).getLast? ≠ some '/' := by
  induction parts with
  | nil => simp [joinParts]
  | cons part rest ih =>
    simp only [List.mem_cons, forall_eq_or_imp] at h
    obtain ⟨⟨_, _, hslash⟩, hrest⟩ := h
    by_cases hnil : rest = []
    · subst hnil
      exact fun hlast => hslash (List.mem_of_getLast? hlast)
    · have hjoined : joinParts rest ≠ [] := by
        obtain ⟨second, more, rfl⟩ := List.exists_cons_of_ne_nil hnil
        have hsecond : second.toList ≠ [] := by
          simpa using (hrest second List.mem_cons_self).1
        cases more <;> simp [joinParts, hsecond]
      rw [joinParts_cons hnil, List.getLast?_append_cons, List.getLast?_cons_of_ne_nil hjoined]
      exact ih hrest

/-- The text of parts is made of them and of slashes. -/
theorem mem_joinParts {parts : List String} {c : Char} (h : c ∈ joinParts parts) :
    c = '/' ∨ ∃ part ∈ parts, c ∈ part.toList := by
  induction parts with
  | nil => simp [joinParts] at h
  | cons part rest ih =>
    by_cases hnil : rest = []
    · subst hnil
      exact Or.inr ⟨part, List.mem_cons_self, h⟩
    · rw [joinParts_cons hnil, List.mem_append, List.mem_cons] at h
      rcases h with hpart | rfl | hrest
      · exact Or.inr ⟨part, List.mem_cons_self, hpart⟩
      · exact Or.inl rfl
      · rcases ih hrest with rfl | ⟨other, hother, hmem⟩
        · exact Or.inl rfl
        · exact Or.inr ⟨other, List.mem_cons_of_mem _ hother, hmem⟩

/-- There is no NUL in the text of parts if there is none in them. -/
theorem nul_not_mem_joinParts {parts : List String}
    (h : ∀ part ∈ parts, '\x00' ∉ part.toList) : '\x00' ∉ joinParts parts := by
  intro hnul
  rcases mem_joinParts hnul with hslash | ⟨part, hpart, hmem⟩
  · exact absurd hslash (by decide)
  · exact h part hpart hmem

/-- There is no NUL in the text of a path if there is none in its parts. -/
theorem nul_not_mem_toText (path : Path) (h : ∀ part ∈ path.parts, '\x00' ∉ part.toList) :
    '\x00' ∉ path.toText.toList := by
  have hanchor : '\x00' ∉ path.anchor.chars := by cases path.anchor <;> decide
  have hcs : '\x00' ∉ path.anchor.chars ++ joinParts path.parts := by
    rw [List.mem_append, not_or]
    exact ⟨hanchor, nul_not_mem_joinParts h⟩
  unfold toText
  dsimp only
  split
  · decide
  · rwa [String.toList_ofList]

/-- What is in a part is in the text of the parts. -/
theorem mem_joinParts_of_mem {parts : List String} {part : String} {c : Char} (hpart : part ∈ parts)
    (hc : c ∈ part.toList) : c ∈ joinParts parts := by
  induction parts with
  | nil => cases hpart
  | cons first rest ih =>
    by_cases hnil : rest = []
    · subst hnil
      rwa [List.mem_singleton.mp hpart] at hc
    · rw [joinParts_cons hnil, List.mem_append, List.mem_cons]
      rcases List.mem_cons.mp hpart with rfl | hrest
      · exact Or.inl hc
      · exact Or.inr (Or.inr (ih hrest))

/-- What is in a part of a text is in the text. -/
theorem mem_of_mem_partsOfChars {cs : List Char} {part : String} {c : Char}
    (hpart : part ∈ partsOfChars cs) (hc : c ∈ part.toList) : c ∈ cs :=
  (joinParts_partsOfChars_sublist cs).subset (mem_joinParts_of_mem hpart hc)

/-- The text along parts is read as the path from the root that has them. -/
theorem ofText_rooted {parts : List String} (h : ∀ part ∈ parts, IsPart part) :
    ofText (rooted parts) = ⟨.root, parts, h⟩ := by
  have hread := ofText_toText ⟨.root, parts, h⟩
  rwa [toText_of_root rfl] at hread

/-- A path without an anchor that is taken from another one comes behind its parts. -/
theorem join_of_relative {path : Path} (h : path.anchor = .relative) (base : Path) :
    (base.join path).anchor = base.anchor ∧
      (base.join path).parts = base.parts ++ path.parts := by
  unfold join
  cases hanchor : path.anchor with
  | relative => exact ⟨rfl, rfl⟩
  | root => simp [hanchor] at h
  | doubleRoot => simp [hanchor] at h

/-- A part that is taken from a path comes behind its parts. -/
theorem join_ofText {name : String} (h : IsPart name) (path : Path) :
    (path.join (ofText name)).anchor = path.anchor ∧
      (path.join (ofText name)).parts = path.parts ++ [name] := by
  obtain ⟨hrelative, hparts⟩ := ofText_of_isPart h
  have hjoin := join_of_relative hrelative path
  rwa [hparts] at hjoin

/-- Parts that are taken from a path, one after the other, come behind its parts. -/
theorem foldl_join_ofText {names : List String} (h : ∀ name ∈ names, IsPart name) (path : Path) :
    (names.foldl (fun path name => path.join (ofText name)) path).anchor = path.anchor ∧
      (names.foldl (fun path name => path.join (ofText name)) path).parts =
        path.parts ++ names := by
  induction names generalizing path with
  | nil => simp
  | cons name rest ih =>
    obtain ⟨hjoinAnchor, hjoinParts⟩ := join_ofText (h name List.mem_cons_self) path
    obtain ⟨hanchor, hparts⟩ := ih (fun other hother => h other (List.mem_cons_of_mem _ hother))
      (path.join (ofText name))
    rw [List.foldl_cons, hanchor, hparts, hjoinAnchor, hjoinParts, List.append_assoc]
    exact ⟨rfl, rfl⟩

end Path

end Fixtures
