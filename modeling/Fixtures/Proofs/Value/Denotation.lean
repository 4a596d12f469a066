import Fixtures.Proofs.Value.Equality

/-!
# What equality decides

Equality of values is described here without the function that decides it. A truth value, an integer
and a finite floating point number stand for exact rational numbers, however large, and are equal if
these are; lists are equal to lists, and tuples to tuples, of the same length with equal members at
each place. As long as nothing in a value is a floating point number that is no number, this is what
the function decides.
-/

namespace Fixtures

/-- A significand is scaled exactly. -/
theorem Binary64.scaled_eq (significand : Nat) (exponent : Int) :
    Binary64.scaled significand exponent = significand * 2 ^ exponent := by
  rw [Binary64.scaled, Rat.mkRat_eq_div]
  cases exponent with
  | ofNat power => simp
  | negSucc power =>
    rw [Int.neg_negSucc, zpow_negSucc, div_eq_mul_inv]
    simp

namespace Value

/-- The rational number that a value stands for. -/
inductive Denotes : Value → ℚ → Prop where
  /-- A truth value stands for one or zero. -/
  | bool (b : Bool) : Denotes (.bool b) (if b then 1 else 0)
  /-- An integer stands for itself. -/
  | int (n : Int) : Denotes (.int n) n
  /-- A finite floating point number stands for its significand times a power of two. -/
  | float (negative : Bool) (significand : Nat) (exponent : Int) :
    Denotes (.float (.finite negative significand exponent))
      ((if negative then -1 else 1) * (significand * 2 ^ exponent))

/-- Two values are equal. -/
inductive Equal : Value → Value → Prop where
  /-- Nothing equals nothing. -/
  | null : Equal .null .null
  /-- Values that stand for one number are equal, of whatever kinds they are. -/
  | number {v w : Value} {q : ℚ} (hv : v.Denotes q) (hw : w.Denotes q) : Equal v w
  /-- An infinite floating point number equals the one with the same sign. -/
  | infinite (negative : Bool) : Equal (.float (.infinite negative)) (.float (.infinite negative))
  /-- A text equals itself. -/
  | text (s : String) : Equal (.text s) (.text s)
  /-- A byte string equals itself. -/
  | bytes (b : List UInt8) : Equal (.bytes b) (.bytes b)
  /-- Lists of the same length are equal if their members are, place by place. -/
  | list {xs ys : List Value} (hlength : xs.length = ys.length)
    (hmembers : ∀ (i : Nat) (hx : i < xs.length) (hy : i < ys.length), Equal xs[i] ys[i]) :
    Equal (.list xs) (.list ys)
  /-- Tuples of the same length are equal if their members are, place by place. -/
  | tuple {xs ys : List Value} (hlength : xs.length = ys.length)
    (hmembers : ∀ (i : Nat) (hx : i < xs.length) (hy : i < ys.length), Equal xs[i] ys[i]) :
    Equal (.tuple xs) (.tuple ys)

/-- Neither a value nor anything in it is a floating point number that is no number. -/
inductive IsDefined : Value → Prop where
  /-- Nothing. -/
  | null : IsDefined .null
  /-- A value that stands for a number. -/
  | number {v : Value} {q : ℚ} (h : v.Denotes q) : IsDefined v
  /-- An infinite floating point number. -/
  | infinite (negative : Bool) : IsDefined (.float (.infinite negative))
  /-- A text. -/
  | text (s : String) : IsDefined (.text s)
  /-- A byte string. -/
  | bytes (b : List UInt8) : IsDefined (.bytes b)
  /-- A list of such values. -/
  | list {xs : List Value} (h : ∀ x ∈ xs, IsDefined x) : IsDefined (.list xs)
  /-- A tuple of such values. -/
  | tuple {xs : List Value} (h : ∀ x ∈ xs, IsDefined x) : IsDefined (.tuple xs)

variable {v w : Value}

/-- The form of a value is a rational number exactly if the value stands for that number. -/
theorem form_eq_number_iff {q : ℚ} : v.form = .number (.exact q) ↔ v.Denotes q := by
  constructor
  · intro hform
    cases v with
    | bool b =>
      rw [form, Form.number.injEq, Magnitude.exact.injEq] at hform
      exact hform ▸ .bool b
    | int n =>
      rw [form, Form.number.injEq, Magnitude.exact.injEq] at hform
      exact hform ▸ .int n
    | float x =>
      cases x with
      | finite negative significand exponent =>
        rw [form, Binary64.magnitude, Form.number.injEq, Magnitude.exact.injEq,
          Binary64.scaled_eq] at hform
        have hfloat := Denotes.float negative significand exponent
        rw [← hform]
        cases negative <;> simpa using hfloat
      | infinite negative => simp [form, Binary64.magnitude] at hform
      | undefined mark => simp [form, Binary64.magnitude] at hform
    | _ => simp [form] at hform
  · rintro (b | n | ⟨negative, significand, exponent⟩)
    · rw [form]
    · rw [form]
    · rw [form, Binary64.magnitude, Binary64.scaled_eq]
      cases negative <;> simp

/-- Lists whose members have the same forms, place by place, have the same forms. -/
theorem map_form_eq_iff {xs ys : List Value} : xs.map form = ys.map form ↔
    xs.length = ys.length ∧
      ∀ (i : Nat) (hx : i < xs.length) (hy : i < ys.length), xs[i].form = ys[i].form := by
  constructor
  · intro h
    have hlength : xs.length = ys.length := by simpa using congrArg List.length h
    refine ⟨hlength, fun i hx hy => ?_⟩
    have hi := congrArg (fun forms => forms[i]?) h
    simpa [hx, hy] using hi
  · rintro ⟨hlength, hmembers⟩
    apply List.ext_getElem (by simpa using hlength)
    intro i hx hy
    simpa using hmembers i (by simpa using hx) (by simpa using hy)

/-- Equal values have the same form. -/
theorem Equal.form_eq (h : v.Equal w) : v.form = w.form := by
  induction h with
  | null => rfl
  | number hv hw => rw [form_eq_number_iff.mpr hv, form_eq_number_iff.mpr hw]
  | infinite negative => rfl
  | text s => rfl
  | bytes b => rfl
  | list hlength _ ih => rw [form_list, form_list, map_form_eq_iff.mpr ⟨hlength, ih⟩]
  | tuple hlength _ ih => rw [form_tuple, form_tuple, map_form_eq_iff.mpr ⟨hlength, ih⟩]

/-- Only tuples have the forms of tuples. -/
theorem exists_tuple_of_form_eq {members : List Form} (h : v.form = .tuple members) :
    ∃ xs, v = .tuple xs ∧ xs.map form = members := by
  cases v with
  | tuple xs => exact ⟨xs, rfl, Form.tuple.inj ((form_tuple xs).symm.trans h)⟩
  | _ => simp [form] at h

/-- A defined value equals the values that have its form. -/
theorem IsDefined.equal_of_form_eq (hv : v.IsDefined) (h : v.form = w.form) : v.Equal w := by
  induction hv generalizing w with
  | null =>
    cases w with
    | null => exact .null
    | _ => simp [form] at h
  | number hq => exact .number hq (form_eq_number_iff.mp (h ▸ form_eq_number_iff.mpr hq))
  | infinite negative =>
    cases w with
    | float x =>
      rw [form, form, Form.number.injEq] at h
      cases x with
      | infinite other =>
        obtain rfl : negative = other := Magnitude.infinite.inj h
        exact .infinite negative
      | _ => cases h
    | _ => simp [form, Binary64.magnitude] at h
  | text s =>
    cases w with
    | text other =>
      obtain rfl : s = other := Form.text.inj h
      exact .text s
    | _ => simp [form] at h
  | bytes b =>
    cases w with
    | bytes other =>
      obtain rfl : b = other := Form.bytes.inj h
      exact .bytes b
    | _ => simp [form] at h
  | list _ ih =>
    obtain ⟨ys, rfl, hforms⟩ := exists_list_of_form_eq (h.symm.trans (form_list _))
    obtain ⟨hlength, hmembers⟩ := map_form_eq_iff.mp hforms.symm
    exact .list hlength fun i hx hy => ih _ (List.getElem_mem hx) (hmembers i hx hy)
  | tuple _ ih =>
    obtain ⟨ys, rfl, hforms⟩ := exists_tuple_of_form_eq (h.symm.trans (form_tuple _))
    obtain ⟨hlength, hmembers⟩ := map_form_eq_iff.mp hforms.symm
    exact .tuple hlength fun i hx hy => ih _ (List.getElem_mem hx) (hmembers i hx hy)

/-- **What equality decides.** Of a defined value, it decides which values are equal to it. -/
theorem same_iff_equal (hv : v.IsDefined) : v.same w ↔ v.Equal w :=
  (same_iff v w).trans ⟨hv.equal_of_form_eq, Equal.form_eq⟩

end Value

end Fixtures
