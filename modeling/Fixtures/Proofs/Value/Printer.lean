import Fixtures.Proofs.Text.Quoted
import Fixtures.Value.Printer

/-!
# Texts of values are unambiguous

Values without floating point numbers can be told by their texts, each with its kind and, to any
depth, with its members. A text says where it ends, a number by what follows it, so the members of
a list or a tuple can be told one after another. The character that a text opens with tells the
kind, and what follows the members tells a tuple of one member from longer ones.
-/

namespace Fixtures.Value

mutual

/-- A value that holds no floating point number, at any depth. -/
def FloatFree : Value → Prop
  | .float _ => False
  | .list xs => AllFloatFree xs
  | .tuple xs => AllFloatFree xs
  | _ => True

/-- Members that hold no floating point number, at any depth. -/
def AllFloatFree : List Value → Prop
  | [] => True
  | x :: xs => FloatFree x ∧ AllFloatFree xs

end

/-! ## Numbers -/

/-- What can follow a number: no further digit. -/
def EndsNumber (rest : List Char) : Prop :=
  ∀ c, rest.head? = some c → c.isDigit = false

/-- A character that is no digit ends a number. -/
theorem endsNumber_cons {c : Char} (hc : c.isDigit = false) (rest : List Char) :
    EndsNumber (c :: rest) := by
  intro d hd
  rwa [← Option.some.inj hd]

/-- The digits of a number are those up to the first character that is none. -/
theorem takeWhile_toDigits_append {rest : List Char} (hrest : EndsNumber rest) (n : Nat) :
    (Nat.toDigits 10 n ++ rest).takeWhile Char.isDigit = Nat.toDigits 10 n := by
  have hdigits : ∀ c ∈ Nat.toDigits 10 n, c.isDigit = true := fun c hc =>
    Nat.isDigit_of_mem_toDigits (by decide) (by decide) hc
  have hstop : rest.takeWhile Char.isDigit = [] := by
    cases rest with
    | nil => rfl
    | cons c rest => exact List.takeWhile_cons_of_neg (by simp [hrest c rfl])
  rw [List.takeWhile_append_of_pos hdigits, hstop, List.append_nil]

/-- Natural numbers whose digits begin one text are the same. -/
theorem toDigits_append_inj {m n : Nat} {rest after : List Char} (hrest : EndsNumber rest)
    (hafter : EndsNumber after) (h : Nat.toDigits 10 m ++ rest = Nat.toDigits 10 n ++ after) :
    m = n ∧ rest = after := by
  have hdigits : Nat.toDigits 10 m = Nat.toDigits 10 n := by
    rw [← takeWhile_toDigits_append hrest m, h, takeWhile_toDigits_append hafter n]
  constructor
  · have hnumber := congrArg (fun digits => Nat.ofDigitChars 10 digits 0) hdigits
    simpa using hnumber
  · rw [hdigits] at h
    exact List.append_cancel_left h

/-- A number without a sign opens with a digit. -/
theorem exists_toDigits_eq_cons (n : Nat) :
    ∃ c cs, Nat.toDigits 10 n = c :: cs ∧ c.isDigit = true := by
  obtain ⟨c, cs, hdigits⟩ := List.exists_cons_of_ne_nil (Nat.toDigits_ne_nil (n := n) (b := 10))
  refine ⟨c, cs, hdigits, ?_⟩
  apply Nat.isDigit_of_mem_toDigits (b := 10) (n := n) (by decide) (by decide)
  rw [hdigits]
  exact List.mem_cons_self

/-- A sign is no digit, so a number with a sign differs from one without. -/
theorem sign_append_ne_toDigits (m n : Nat) (rest after : List Char) :
    '-' :: Nat.toDigits 10 m ++ rest ≠ Nat.toDigits 10 n ++ after := by
  intro h
  obtain ⟨c, cs, hdigits, hdigit⟩ := exists_toDigits_eq_cons n
  rw [hdigits, List.cons_append, List.cons_append] at h
  rw [← (List.cons.inj h).1] at hdigit
  exact absurd hdigit (by decide)

/-- Integers whose texts begin one text are the same. -/
theorem intChars_append_inj {m n : Int} {rest after : List Char} (hrest : EndsNumber rest)
    (hafter : EndsNumber after) (h : intChars m ++ rest = intChars n ++ after) :
    m = n ∧ rest = after := by
  unfold intChars at h
  split at h
  · split at h
    · obtain ⟨habs, heq⟩ := toDigits_append_inj hrest hafter (List.cons.inj h).2
      exact ⟨by omega, heq⟩
    · exact absurd h (sign_append_ne_toDigits _ _ _ _)
  · split at h
    · exact absurd h.symm (sign_append_ne_toDigits _ _ _ _)
    · obtain ⟨habs, heq⟩ := toDigits_append_inj hrest hafter h
      exact ⟨by omega, heq⟩

/-! ## The character that opens a text -/

/-- The name of the kind of values whose texts open with a character. -/
def kindOpenedBy (c : Char) : String :=
  if c = 'N' then "NoneType"
  else if c = 'T' ∨ c = 'F' then "bool"
  else if c = '\'' ∨ c = '"' then "str"
  else if c = 'b' then "bytes"
  else if c = '[' then "list"
  else if c = '(' then "tuple"
  else "int"

/-- Characters that no text of a value opens with: those that follow members. -/
def FollowsMember (c : Char) : Prop :=
  c = ',' ∨ c = ']' ∨ c = ')'

/-- A text that tells the kind of its value by the character that it opens with. -/
def Opens (kindName : String) (text : List Char) : Prop :=
  ∃ c cs, text = c :: cs ∧ kindOpenedBy c = kindName ∧ ¬ FollowsMember c

/-- Texts of one opening are texts of one kind. -/
theorem Opens.kindName_eq {k l : String} {s t rest after : List Char} (hs : Opens k s)
    (ht : Opens l t) (h : s ++ rest = t ++ after) : k = l := by
  obtain ⟨c, cs, rfl, hc, _⟩ := hs
  obtain ⟨d, ds, rfl, hd, _⟩ := ht
  rw [List.cons_append, List.cons_append] at h
  rw [← hc, ← hd, (List.cons.inj h).1]

/-- An integer opens with a digit or a sign, which open nothing else. -/
theorem opens_intChars (n : Int) : Opens "int" (intChars n) := by
  unfold intChars
  split
  · exact ⟨'-', _, rfl, by decide, by simp [FollowsMember]⟩
  · obtain ⟨c, cs, hdigits, hdigit⟩ := exists_toDigits_eq_cons n.natAbs
    have hne (d : Char) (hd : d.isDigit = false) : c ≠ d := by
      rintro rfl
      rw [hd] at hdigit
      cases hdigit
    refine ⟨c, cs, hdigits, ?_, ?_⟩
    · simp [kindOpenedBy, hne]
    · simp [FollowsMember, hne]

/-- A quoted text opens with its quote. -/
theorem opens_write (printable : Char → Bool) (cs : List Char) :
    Opens "str" (Text.Quoted.write printable cs) := by
  refine ⟨Text.Quoted.quoteFor cs, _, rfl, ?_, ?_⟩
  · rcases Text.Quoted.quoteFor_cases cs with h | h
    · rw [h]
      decide
    · rw [h]
      decide
  · rcases Text.Quoted.quoteFor_cases cs with h | h
    · simp [FollowsMember, h]
    · simp [FollowsMember, h]

variable {printable : Char → Bool}

/-- Every value is told in its kind by the character that its text opens with. -/
theorem opens_chars (printable : Char → Bool) {v : Value} (hv : v.FloatFree) :
    Opens v.kindName (chars printable v) := by
  cases v with
  | null => exact ⟨'N', _, rfl, by decide, by simp [FollowsMember]⟩
  | bool b =>
    cases b with
    | true => exact ⟨'T', _, rfl, by decide, by simp [FollowsMember]⟩
    | false => exact ⟨'F', _, rfl, by decide, by simp [FollowsMember]⟩
  | int n => exact opens_intChars n
  | float x => exact hv.elim
  | text s => exact opens_write printable s.toList
  | bytes b => exact ⟨'b', _, rfl, rfl, by simp [FollowsMember]⟩
  | list xs => exact ⟨'[', _, by rw [chars], rfl, by simp [FollowsMember]⟩
  | tuple xs => exact ⟨'(', _, by rw [chars], rfl, by simp [FollowsMember]⟩

/-! ## Members -/

/-- The texts of members with what stands between them. -/
def memberChars (printable : Char → Bool) (xs : List Value) : List Char :=
  commaSeparated (xs.map (chars printable))

/-- The members behind one that has been written, each behind a comma and a space. -/
def moreChars (printable : Char → Bool) : List Value → List Char
  | [] => []
  | x :: xs => ',' :: ' ' :: memberChars printable (x :: xs)

/-- Members are the first one and the ones behind it. -/
theorem memberChars_cons (x : Value) (xs : List Value) :
    memberChars printable (x :: xs) = chars printable x ++ moreChars printable xs := by
  cases xs with
  | nil => simp [memberChars, moreChars, commaSeparated]
  | cons y ys => simp [memberChars, moreChars, commaSeparated, List.intercalate_cons_cons]

/-- What follows the members of a tuple: a single member has a comma behind it. -/
def tupleEnd (length : Nat) : List Char :=
  if length = 1 then [',', ')'] else [')']

/-- A list is written as its members in brackets. -/
theorem chars_list (xs : List Value) :
    chars printable (.list xs) = '[' :: (memberChars printable xs ++ [']']) := by
  rw [chars, textsBehind_eq]
  rfl

/-- A tuple is written as its members in parentheses. -/
theorem chars_tuple (xs : List Value) :
    chars printable (.tuple xs) = '(' :: (memberChars printable xs ++ tupleEnd xs.length) := by
  rw [chars, textsBehind_eq]
  rfl

/-- What can follow the members of a list or a tuple. -/
inductive EndsMembers : List Char → Prop where
  /-- The end of a list. -/
  | bracket (rest : List Char) : EndsMembers (']' :: rest)
  /-- The end of a tuple. -/
  | parenthesis (rest : List Char) : EndsMembers (')' :: rest)
  /-- The end of a tuple of one member. -/
  | single (rest : List Char) : EndsMembers (',' :: ')' :: rest)

/-- The end of a tuple ends its members. -/
theorem endsMembers_tupleEnd (length : Nat) (rest : List Char) :
    EndsMembers (tupleEnd length ++ rest) := by
  unfold tupleEnd
  split
  · exact .single rest
  · exact .parenthesis rest

/-- What can follow members begins with a character that no text of a value opens with. -/
theorem EndsMembers.exists_cons {rest : List Char} (h : EndsMembers rest) :
    ∃ c more, rest = c :: more ∧ FollowsMember c := by
  cases h with
  | bracket rest => exact ⟨']', rest, rfl, Or.inr (Or.inl rfl)⟩
  | parenthesis rest => exact ⟨')', rest, rfl, Or.inr (Or.inr rfl)⟩
  | single rest => exact ⟨',', ')' :: rest, rfl, Or.inl rfl⟩

/-- No text of a value stands where members end. -/
theorem EndsMembers.ne_chars {rest : List Char} (h : EndsMembers rest) {x : Value}
    (hx : x.FloatFree) (after : List Char) : rest ≠ chars printable x ++ after := by
  intro heq
  obtain ⟨c, cs, htext, _, hfollows⟩ := opens_chars printable hx
  obtain ⟨d, more, hrest, hd⟩ := h.exists_cons
  rw [htext, hrest, List.cons_append] at heq
  rw [(List.cons.inj heq).1] at hd
  exact hfollows hd

/-- No further member stands where members end: behind a comma there is no space. -/
theorem EndsMembers.ne_more {rest : List Char} (h : EndsMembers rest) (after : List Char) :
    rest ≠ ',' :: ' ' :: after := by
  rintro rfl
  cases h

/-- A number that is a member ends where the next member begins, or where the members end. -/
theorem EndsMembers.endsNumber {rest : List Char} (h : EndsMembers rest) (xs : List Value) :
    EndsNumber (moreChars printable xs ++ rest) := by
  cases xs with
  | nil =>
    obtain ⟨c, more, hrest, hc⟩ := h.exists_cons
    rw [moreChars, List.nil_append, hrest]
    apply endsNumber_cons
    rcases hc with rfl | rfl | rfl <;> decide
  | cons x xs => exact endsNumber_cons (by decide) _

/-! ## Values -/

mutual

/-- **Texts of values end by themselves.** Where the texts of two values begin one text, and no
digit follows them, the values are the same, and the same follows. -/
theorem chars_append_inj : (v w : Value) → v.FloatFree → w.FloatFree → {rest after : List Char} →
    EndsNumber rest → EndsNumber after →
    chars printable v ++ rest = chars printable w ++ after → v = w ∧ rest = after
  | v, w, hv, hw, rest, after, hrest, hafter, h => by
    have hkind : v.kindName = w.kindName :=
      (opens_chars printable hv).kindName_eq (opens_chars printable hw) h
    cases v with
    | null =>
      cases w with
      | null => exact ⟨rfl, List.append_cancel_left h⟩
      | _ => simp [kindName] at hkind
    | bool b =>
      cases w with
      | bool c =>
        cases b <;> cases c
        · exact ⟨rfl, List.append_cancel_left h⟩
        · simp [chars] at h
        · simp [chars] at h
        · exact ⟨rfl, List.append_cancel_left h⟩
      | _ => simp [kindName] at hkind
    | int m =>
      cases w with
      | int n =>
        obtain ⟨rfl, heq⟩ := intChars_append_inj hrest hafter h
        exact ⟨rfl, heq⟩
      | _ => simp [kindName] at hkind
    | float x => exact hv.elim
    | text s =>
      cases w with
      | text t =>
        obtain ⟨hchars, heq⟩ := Text.Quoted.write_append_inj h
        exact ⟨congrArg text (String.toList_inj.mp hchars), heq⟩
      | _ => simp [kindName] at hkind
    | bytes b =>
      cases w with
      | bytes c =>
        obtain ⟨rfl, heq⟩ := Text.Quoted.writeBytes_append_inj h
        exact ⟨rfl, heq⟩
      | _ => simp [kindName] at hkind
    | list xs =>
      cases w with
      | list ys =>
        rw [chars_list, chars_list, List.cons_append, List.cons_append, List.append_assoc,
          List.append_assoc] at h
        obtain ⟨rfl, hend⟩ := memberChars_append_inj xs ys hv hw (.bracket rest) (.bracket after)
          (List.cons.inj h).2
        exact ⟨rfl, (List.cons.inj hend).2⟩
      | _ => simp [kindName] at hkind
    | tuple xs =>
      cases w with
      | tuple ys =>
        rw [chars_tuple, chars_tuple, List.cons_append, List.cons_append, List.append_assoc,
          List.append_assoc] at h
        obtain ⟨rfl, hend⟩ := memberChars_append_inj xs ys hv hw
          (endsMembers_tupleEnd xs.length rest) (endsMembers_tupleEnd ys.length after)
          (List.cons.inj h).2
        exact ⟨rfl, List.append_cancel_left hend⟩
      | _ => simp [kindName] at hkind

/-- Members can be told one after another up to what follows them. -/
theorem memberChars_append_inj : (xs ys : List Value) → AllFloatFree xs → AllFloatFree ys →
    {rest after : List Char} → EndsMembers rest → EndsMembers after →
    memberChars printable xs ++ rest = memberChars printable ys ++ after → xs = ys ∧ rest = after
  | [], [], _, _, _, _, _, _, h => ⟨rfl, h⟩
  | [], y :: ys, _, hys, _, _, hrest, _, h => by
    rw [memberChars_cons, List.append_assoc] at h
    exact absurd h (hrest.ne_chars hys.1 _)
  | x :: xs, [], hxs, _, _, _, _, hafter, h => by
    rw [memberChars_cons, List.append_assoc] at h
    exact absurd h.symm (hafter.ne_chars hxs.1 _)
  | x :: xs, y :: ys, hxs, hys, rest, after, hrest, hafter, h => by
    rw [memberChars_cons, memberChars_cons, List.append_assoc, List.append_assoc] at h
    obtain ⟨rfl, hmore⟩ := chars_append_inj x y hxs.1 hys.1 (hrest.endsNumber xs)
      (hafter.endsNumber ys) h
    -- Behind the first members either both lists go on or both end.
    cases xs with
    | nil =>
      cases ys with
      | nil => exact ⟨rfl, hmore⟩
      | cons y ys => exact absurd hmore (hrest.ne_more _)
    | cons x' xs =>
      cases ys with
      | nil => exact absurd hmore.symm (hafter.ne_more _)
      | cons y ys =>
        have htail := (List.cons.inj (List.cons.inj hmore).2).2
        obtain ⟨heq, hend⟩ := memberChars_append_inj (x' :: xs) (y :: ys) hxs.2 hys.2 hrest hafter
          htail
        exact ⟨by rw [heq], hend⟩

end

end Fixtures.Value
