import Fixtures.Value.Equality
import Mathlib

/-!
# Equality is sameness of form

What equality sees of a value is its form: of a number only how large it is, of a list or a tuple
the forms of its members. Two values are equal exactly if they have the same form. Equality is
therefore an equivalence, and whatever an operation makes of the form of a list, it makes alike of
equal lists.
-/

namespace Fixtures.Value

/-- What equality sees of a value. -/
inductive Form where
  /-- Nothing. -/
  | null
  /-- A number, of whatever kind. -/
  | number (m : Magnitude)
  /-- A text. -/
  | text (s : String)
  /-- A byte string. -/
  | bytes (b : List UInt8)
  /-- A list of members. -/
  | list (members : List Form)
  /-- A tuple of members. -/
  | tuple (members : List Form)

mutual

/-- The form of a value. -/
def form : Value → Form
  | .null => .null
  | .bool b => .number (.exact (if b then 1 else 0))
  | .int n => .number (.exact n)
  | .float x => .number x.magnitude
  | .text s => .text s
  | .bytes b => .bytes b
  | .list xs => .list (forms xs)
  | .tuple xs => .tuple (forms xs)

/-- The forms of the members of a list. -/
def forms : List Value → List Form
  | [] => []
  | x :: xs => form x :: forms xs

end

/-- The forms are made member by member. -/
theorem forms_eq_map (xs : List Value) : forms xs = xs.map form := by
  induction xs with
  | nil => rfl
  | cons x xs ih => rw [forms, ih, List.map_cons]

@[simp] theorem form_list (xs : List Value) : (list xs).form = .list (xs.map form) := by
  rw [form, forms_eq_map]

@[simp] theorem form_tuple (xs : List Value) : (tuple xs).form = .tuple (xs.map form) := by
  rw [form, forms_eq_map]

/-- A value denotes a number exactly if that number is its form. -/
theorem magnitude?_eq_some_iff {w : Value} {m : Magnitude} :
    some m = w.magnitude? ↔ Form.number m = w.form := by
  cases w <;> simp [magnitude?, form]

mutual

/-- **Equality is sameness of form.** -/
theorem same_iff : (v w : Value) → (v.same w ↔ v.form = w.form)
  | .null, w => by cases w <;> simp [same, form]
  | .bool b, w => by simp [same, form, magnitude?_eq_some_iff]
  | .int n, w => by simp [same, form, magnitude?_eq_some_iff]
  | .float x, w => by simp [same, form, magnitude?_eq_some_iff]
  | .text s, w => by cases w <;> simp [same, form]
  | .bytes b, w => by cases w <;> simp [same, form]
  | .list xs, .list ys => by simp [same, form, sameAll_iff xs ys]
  | .list xs, .null | .list xs, .bool _ | .list xs, .int _ | .list xs, .float _
  | .list xs, .text _ | .list xs, .bytes _ | .list xs, .tuple _ => by simp [same, form]
  | .tuple xs, .tuple ys => by simp [same, form, sameAll_iff xs ys]
  | .tuple xs, .null | .tuple xs, .bool _ | .tuple xs, .int _ | .tuple xs, .float _
  | .tuple xs, .text _ | .tuple xs, .bytes _ | .tuple xs, .list _ => by simp [same, form]

/-- Two lists have equal members if these have the same forms. -/
theorem sameAll_iff : (xs ys : List Value) → (sameAll xs ys ↔ forms xs = forms ys)
  | [], [] => by simp [sameAll]
  | [], _ :: _ => by simp [sameAll, forms]
  | _ :: _, [] => by simp [sameAll, forms]
  | x :: xs, y :: ys => by simp [sameAll, forms, same_iff x y, sameAll_iff xs ys]

end

/-- Equality is symmetric. -/
theorem same_comm (v w : Value) : v.same w = w.same v := by
  rw [Bool.eq_iff_iff, same_iff, same_iff, eq_comm]

/-- Equality is transitive. -/
theorem same_trans {u v w : Value} (huv : u.same v) (hvw : v.same w) : u.same w := by
  rw [same_iff] at huv hvw ⊢
  exact huv.trans hvw

/-- Values of the same forms compare alike. -/
theorem same_congr {v w v' w' : Value} (hv : v.form = v'.form) (hw : w.form = w'.form) :
    v.same w = v'.same w' := by
  rw [Bool.eq_iff_iff, same_iff, same_iff, hv, hw]

/-- Only lists have the forms of lists. -/
theorem exists_list_of_form_eq {v : Value} {members : List Form} (h : v.form = .list members) :
    ∃ xs, v = .list xs ∧ xs.map form = members := by
  cases v with
  | list xs => exact ⟨xs, rfl, Form.list.inj ((form_list xs).symm.trans h)⟩
  | _ => simp [form] at h

/-- Equal values have members of the same forms, or none of them has members. -/
theorem map_members?_of_form_eq {v w : Value} (h : v.form = w.form) :
    v.members?.map (List.map form) = w.members?.map (List.map form) := by
  cases v <;> cases w <;> simp_all [form, forms_eq_map, members?]

/-- In lists of the same forms the first member that equals a value has the same place. -/
theorem findIdx?_same_congr {xs ys : List Value} (h : xs.map form = ys.map form)
    (wanted : Value) :
    xs.findIdx? (fun x => x.same wanted) = ys.findIdx? (fun y => y.same wanted) := by
  induction xs generalizing ys with
  | nil =>
    obtain rfl : ys = [] := List.map_eq_nil_iff.mp h.symm
    rfl
  | cons x xs ih =>
    obtain ⟨y, ys, rfl, hfirst, hrest⟩ := List.map_eq_cons_iff.mp h.symm
    have hsame : x.same wanted = y.same wanted := same_congr hfirst.symm rfl
    rw [List.findIdx?_cons, List.findIdx?_cons, hsame, ih hrest.symm]

end Fixtures.Value
