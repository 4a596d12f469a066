import Fixtures.Manifest
import Fixtures.Proofs.Text.Utf8
import Mathlib.Data.List.TakeWhile
import Mathlib.Data.Nat.Find

/-!
# Where a manifest states a version

A version is stated at the beginning of a line by the word `version`, an equals sign with white
space on either side, and a value between double quotes. What a place states is determined by the
place, and what is read from a manifest is what its first such place states. A manifest without one
is refused.
-/

namespace Fixtures.Manifest

open Text

/-- A version is stated at the front of some characters: the word, blanks, an equals sign, blanks,
and the value between double quotes. The value is not empty and holds no double quote. -/
structure StatesAtFront (cs value : List Char) : Prop where
  /-- The characters begin so. -/
  form : ∃ blanks blanks' rest,
    cs = "version".toList ++ (blanks ++ '=' :: (blanks' ++ '"' :: (value ++ '"' :: rest))) ∧
      (∀ c ∈ blanks, isBlank c = true) ∧ ∀ c ∈ blanks', isBlank c = true
  /-- The value is not empty. -/
  value_ne_nil : value ≠ []
  /-- There is no double quote in the value. -/
  quote_not_mem : '"' ∉ value

/-- A place is at the beginning of a line: at the beginning of the text, if a line begins there, or
behind a line feed. -/
def IsLineStart (atLineStart : Bool) (text : List Char) : Nat → Prop
  | 0 => atLineStart = true
  | before + 1 => text[before]? = some '\n'

/-- A line begins at a place and states a version there. -/
structure StatesAt (atLineStart : Bool) (text : List Char) (place : Nat) (value : List Char) :
    Prop where
  /-- A line begins. -/
  isLineStart : IsLineStart atLineStart text place
  /-- A version is stated. -/
  statesAtFront : StatesAtFront (text.drop place) value

/-- The first place that states a version states this one. -/
def FirstStates (atLineStart : Bool) (text value : List Char) : Prop :=
  ∃ place, StatesAt atLineStart text place value ∧
    ∀ other value', StatesAt atLineStart text other value' → place ≤ other

/-! ## What is stated at the front -/

/-- What follows a beginning is what is behind it. -/
theorem after?_eq_some_iff {beginning cs rest : List Char} :
    after? beginning cs = some rest ↔ cs = beginning ++ rest := by
  induction beginning generalizing cs with
  | nil =>
    rw [after?, List.nil_append]
    exact Option.some_inj
  | cons b beginning ih =>
    cases cs with
    | nil => simp [after?]
    | cons c cs =>
      rw [after?, List.cons_append, List.cons.injEq]
      by_cases h : b = c
      · rw [if_pos h, ih]
        exact ⟨fun hrest => ⟨h.symm, hrest⟩, fun hboth => hboth.2⟩
      · rw [if_neg h]
        exact iff_of_false (fun hnone => nomatch hnone) fun hboth => h hboth.1.symm

/-- Behind the blanks at the front there is a character that is not blank. -/
theorem dropWhile_isBlank_eq_cons_iff {cs rest : List Char} {c : Char} (hc : isBlank c = false) :
    cs.dropWhile isBlank = c :: rest ↔
      ∃ blanks, cs = blanks ++ c :: rest ∧ ∀ b ∈ blanks, isBlank b = true := by
  constructor
  · intro h
    refine ⟨cs.takeWhile isBlank, ?_, fun b hb => List.mem_takeWhile_imp hb⟩
    rw [← h, List.takeWhile_append_dropWhile]
  · rintro ⟨blanks, rfl, hblanks⟩
    rw [List.dropWhile_append_of_pos hblanks, List.dropWhile_cons_of_neg]
    simp [hc]

/-- Characters without a double quote are taken up to the first one. -/
theorem takeWhile_quote {value : List Char} (hquote : '"' ∉ value) (rest : List Char) :
    (value ++ '"' :: rest).takeWhile (· != '"') = value := by
  have hall : ∀ c ∈ value, (c != '"') = true := by
    intro c hc
    rw [bne_iff_ne]
    rintro rfl
    exact hquote hc
  rw [List.takeWhile_append_of_pos hall, List.takeWhile_cons_of_neg (by simp), List.append_nil]

/-- Where not all characters are taken, a double quote is behind those that are. -/
theorem exists_behind_takeWhile_quote {body : List Char}
    (hlonger : body.length ≠ (body.takeWhile (· != '"')).length) :
    ∃ rest, body = body.takeWhile (· != '"') ++ '"' :: rest := by
  have hall := List.takeWhile_append_dropWhile (p := (· != '"')) (l := body)
  cases hrest : body.dropWhile (· != '"') with
  | nil =>
    rw [hrest, List.append_nil] at hall
    exact absurd (congrArg List.length hall).symm hlonger
  | cons c rest =>
    have hc : c = '"' := by
      have hlong : 0 < (body.dropWhile (· != '"')).length := by simp [hrest]
      have hhead := List.dropWhile_get_zero_not (· != '"') body hlong
      simpa [hrest] using hhead
    obtain rfl := hc
    rw [hrest] at hall
    exact ⟨rest, hall.symm⟩

/-- What is quoted at the front is what stands between a double quote and the next one. -/
theorem quoted?_eq_some_iff {cs value : List Char} :
    quoted? cs = some value ↔
      (∃ rest, cs = '"' :: (value ++ '"' :: rest)) ∧ value ≠ [] ∧ '"' ∉ value := by
  unfold quoted?
  constructor
  · intro hquoted
    obtain ⟨body, hbody, h⟩ := Option.bind_eq_some_iff.mp hquoted
    clear hquoted
    dsimp only at h
    obtain rfl := after?_eq_some_iff.mp hbody
    split at h
    · cases h
    · rename_i hproper
      obtain rfl := Option.some.inj h
      simp only [Bool.or_eq_true, List.isEmpty_iff, decide_eq_true_eq, not_or] at hproper
      obtain ⟨hne, hlonger⟩ := hproper
      obtain ⟨rest, hrest⟩ := exists_behind_takeWhile_quote hlonger
      refine ⟨⟨rest, congrArg _ hrest⟩, hne, fun hmem => ?_⟩
      have hdiffers : ('"' != '"') = true := List.mem_takeWhile_imp (p := (· != '"')) hmem
      exact absurd hdiffers (by decide)
  · rintro ⟨⟨rest, rfl⟩, hne, hquote⟩
    have hafter : after? ['"'] ('"' :: (value ++ '"' :: rest)) = some (value ++ '"' :: rest) :=
      after?_eq_some_iff.mpr rfl
    have hproper : ¬ (value.isEmpty || (value ++ '"' :: rest).length = value.length) = true := by
      simp [hne]
    refine Option.bind_eq_some_iff.mpr ⟨_, hafter, ?_⟩
    simp only [takeWhile_quote hquote, if_neg hproper]

/-- What is read at the front is what is stated there. -/
theorem versionHere?_eq_some_iff {cs value : List Char} :
    versionHere? cs = some value ↔ StatesAtFront cs value := by
  have hequals : isBlank '=' = false := by decide
  have hquote : isBlank '"' = false := by decide
  constructor
  · intro h
    obtain ⟨behind, hbehind, h⟩ := Option.bind_eq_some_iff.mp h
    obtain ⟨right, hright, h⟩ := Option.bind_eq_some_iff.mp h
    obtain ⟨⟨rest, hrest⟩, hne, hmem⟩ := quoted?_eq_some_iff.mp h
    rw [after?_eq_some_iff] at hbehind hright
    obtain ⟨blanks, rfl, hblanks⟩ := (dropWhile_isBlank_eq_cons_iff hequals).mp hright
    obtain ⟨blanks', rfl, hblanks'⟩ := (dropWhile_isBlank_eq_cons_iff hquote).mp hrest
    exact ⟨⟨blanks, blanks', rest, hbehind, hblanks, hblanks'⟩, hne, hmem⟩
  · rintro ⟨⟨blanks, blanks', rest, rfl, hblanks, hblanks'⟩, hne, hmem⟩
    generalize hbehind : blanks' ++ '"' :: (value ++ '"' :: rest) = behind
    have hright : behind.dropWhile isBlank = '"' :: (value ++ '"' :: rest) :=
      (dropWhile_isBlank_eq_cons_iff hquote).mpr ⟨blanks', hbehind.symm, hblanks'⟩
    have hleft : (blanks ++ '=' :: behind).dropWhile isBlank = '=' :: behind :=
      (dropWhile_isBlank_eq_cons_iff hequals).mpr ⟨blanks, rfl, hblanks⟩
    have hword : after? "version".toList ("version".toList ++ (blanks ++ '=' :: behind)) =
        some (blanks ++ '=' :: behind) := after?_eq_some_iff.mpr rfl
    have hsign : after? ['='] ((blanks ++ '=' :: behind).dropWhile isBlank) = some behind :=
      after?_eq_some_iff.mpr hleft
    unfold versionHere?
    rw [hword, Option.bind_eq_bind, Option.bind_some, hsign, Option.bind_some]
    exact quoted?_eq_some_iff.mpr ⟨⟨rest, hright⟩, hne, hmem⟩

/-- Only one version is stated at the front. -/
theorem StatesAtFront.unique {cs value value' : List Char} (h : StatesAtFront cs value)
    (h' : StatesAtFront cs value') : value = value' := by
  rw [← versionHere?_eq_some_iff] at h h'
  exact Option.some.inj (h.symm.trans h')

/-! ## The first place -/

section Places

variable {atLineStart : Bool} {c : Char} {rest value value' : List Char} {place : Nat}

/-- A place states one version only. -/
theorem StatesAt.unique {text : List Char} (h : StatesAt atLineStart text place value)
    (h' : StatesAt atLineStart text place value') : value = value' :=
  h.statesAtFront.unique h'.statesAtFront

/-- No place of an empty text states a version. -/
theorem not_statesAt_nil : ¬ StatesAt atLineStart [] place value := by
  rintro ⟨_, ⟨blanks, blanks', rest, hform, _⟩, _⟩
  rw [List.drop_nil] at hform
  cases hform

/-- The first place states what is stated at the front, if a line begins there. -/
theorem statesAt_zero_iff {text : List Char} :
    StatesAt atLineStart text 0 value ↔ atLineStart = true ∧ StatesAtFront text value :=
  ⟨fun h => ⟨h.isLineStart, h.statesAtFront⟩, fun h => ⟨h.1, h.2⟩⟩

/-- Behind the first character a line begins if the character is a line feed. -/
theorem statesAt_succ_iff :
    StatesAt atLineStart (c :: rest) (place + 1) value ↔
      StatesAt (c == '\n') rest place value := by
  have hline : IsLineStart atLineStart (c :: rest) (place + 1) ↔
      IsLineStart (c == '\n') rest place := by
    cases place with
    | zero => simp [IsLineStart]
    | succ place => simp [IsLineStart]
  exact ⟨fun h => ⟨hline.mp h.isLineStart, h.statesAtFront⟩,
    fun h => ⟨hline.mpr h.isLineStart, h.statesAtFront⟩⟩

/-- What is tried at the front is stated at the first place. -/
theorem versionHere?_of_atLineStart {text : List Char} :
    (if atLineStart then versionHere? text else none) = some value ↔
      StatesAt atLineStart text 0 value := by
  rw [statesAt_zero_iff, ← versionHere?_eq_some_iff]
  cases atLineStart <;> simp

end Places

/-- **The first version is found.** What is found is what the first place states that states a
version. -/
theorem firstVersion?_eq_some_iff {atLineStart : Bool} {text value : List Char} :
    firstVersion? atLineStart text = some value ↔ FirstStates atLineStart text value := by
  -- The induction goes from the front to the back; the places behind a character are one further on.
  induction text generalizing atLineStart with
  | nil =>
    refine iff_of_false (fun h => nomatch h) ?_
    rintro ⟨_, h, _⟩
    exact not_statesAt_nil h
  | cons c rest ih =>
    rw [firstVersion?]
    cases hhere : if atLineStart then versionHere? (c :: rest) else none with
    | some found =>
      have hfront := versionHere?_of_atLineStart.mp hhere
      constructor
      · intro h
        obtain rfl := Option.some.inj h
        exact ⟨0, hfront, fun _ _ _ => Nat.zero_le _⟩
      · rintro ⟨place, hplace, hfirst⟩
        obtain rfl : place = 0 := Nat.le_zero.mp (hfirst 0 found hfront)
        exact congrArg some (hfront.unique hplace)
    | none =>
      have hfront (other : List Char) : ¬ StatesAt atLineStart (c :: rest) 0 other := by
        rw [← versionHere?_of_atLineStart, hhere]
        exact fun h => nomatch h
      refine ih.trans ?_
      constructor
      · rintro ⟨place, hplace, hfirst⟩
        refine ⟨place + 1, statesAt_succ_iff.mpr hplace, fun other value' hother => ?_⟩
        cases other with
        | zero => exact absurd hother (hfront value')
        | succ other => exact Nat.succ_le_succ (hfirst other value' (statesAt_succ_iff.mp hother))
      · rintro ⟨place, hplace, hfirst⟩
        cases place with
        | zero => exact absurd hplace (hfront value)
        | succ place =>
          refine ⟨place, statesAt_succ_iff.mp hplace, fun other value' hother => ?_⟩
          exact Nat.le_of_succ_le_succ (hfirst (other + 1) value' (statesAt_succ_iff.mpr hother))

/-- A value that is empty is passed over, and so is a longer word. -/
example : firstVersion? true "version=\"\"\nversions = \"0\"\nversion =\n \"1\"".toList =
    some ['1'] := by decide

/-- There is a first place as soon as there is any. -/
theorem exists_firstStates {atLineStart : Bool} {text value : List Char} {place : Nat}
    (h : StatesAt atLineStart text place value) : ∃ first, FirstStates atLineStart text first := by
  classical
  have hsome : ∃ place, ∃ value, StatesAt atLineStart text place value := ⟨place, value, h⟩
  obtain ⟨first, hfirst⟩ := Nat.find_spec hsome
  exact ⟨first, Nat.find hsome, hfirst, fun other value' hother =>
    Nat.find_min' hsome ⟨value', hother⟩⟩

/-- No version is found exactly where no place states one. -/
theorem firstVersion?_eq_none_iff {atLineStart : Bool} {text : List Char} :
    firstVersion? atLineStart text = none ↔
      ∀ place value, ¬ StatesAt atLineStart text place value := by
  constructor
  · intro h place value hplace
    obtain ⟨first, hfirst⟩ := exists_firstStates hplace
    rw [← firstVersion?_eq_some_iff, h] at hfirst
    cases hfirst
  · intro h
    cases hfound : firstVersion? atLineStart text with
    | none => rfl
    | some value =>
      obtain ⟨place, hplace, _⟩ := firstVersion?_eq_some_iff.mp hfound
      exact absurd hplace (h place value)

/-! ## Reading a manifest -/

/-- A manifest in UTF-8 is read as its characters, with one kind of line end. -/
theorem readVersion_encode (cs : List Char) :
    readVersion (some (Utf8.encode cs)) =
      match firstVersion? true (unifyLines cs) with
      | some version => .ok (String.ofList version)
      | none => .error .noVersion := by
  cases hversion : firstVersion? true (unifyLines cs) with
  | none => simp only [readVersion, Utf8.decode_encode, hversion]
  | some version => simp only [readVersion, Utf8.decode_encode, hversion]

/-- **What is read from a manifest.** In the characters of a manifest, with one kind of line end, a
place states one version at most. The version of the first such place is read if there is one, and
the manifest is refused for stating none exactly if there is no such place. -/
theorem readVersion_eq_first (cs : List Char) :
    (∀ place value value', StatesAt true (unifyLines cs) place value →
      StatesAt true (unifyLines cs) place value' → value = value') ∧
    (∀ version, readVersion (some (Utf8.encode cs)) = .ok version ↔
      FirstStates true (unifyLines cs) version.toList) ∧
    (readVersion (some (Utf8.encode cs)) = .error .noVersion ↔
      ∀ place value, ¬ StatesAt true (unifyLines cs) place value) := by
  refine ⟨fun place value value' h h' => h.unique h', fun version => ?_, ?_⟩
  · rw [readVersion_encode, ← firstVersion?_eq_some_iff]
    cases firstVersion? true (unifyLines cs) with
    | none => simp
    | some found => simp [String.ext_iff]
  · rw [readVersion_encode, ← firstVersion?_eq_none_iff]
    cases firstVersion? true (unifyLines cs) with
    | none => simp
    | some found => simp

end Fixtures.Manifest
