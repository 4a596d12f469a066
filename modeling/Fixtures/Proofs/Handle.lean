import Fixtures.Handle
import Mathlib.Data.List.Basic

/-!
# Reads one after the other

Reads hand out a file piece by piece: an answered read hands out the next bytes, as many as it asks
for or as are left, and a refused one hands out none and leaves them for the next. So nothing is
skipped and nothing is handed out twice, however many bytes the reads ask for.
-/

namespace Fixtures.Handle

/-- The number of bytes that a read asks for: as many as it says, or with -1 all that are left. -/
def Asks (left : List UInt8) (count : Int) (wanted : Nat) : Prop :=
  count = -1 ∧ wanted = left.length ∨ count = (wanted : Int)

/-- The handle is open, and these bytes are left behind its offset. -/
structure StandsBefore (h : Handle) (t : Tree) (left : List UInt8) : Prop where
  /-- The handle is open. -/
  isOpen_eq : h.isOpen = true
  /-- The bytes are left. -/
  left_eq : (h.content t).toList.drop h.offset = left

/-- Behind bytes that were taken those are left that would have been left without them. -/
theorem StandsBefore.advance {h : Handle} {t : Tree} {left : List UInt8}
    (hstands : h.StandsBefore t left) (wanted : Nat) :
    ({ h with offset := h.offset + (left.take wanted).length } : Handle).StandsBefore t
      (left.drop wanted) where
  isOpen_eq := hstands.isOpen_eq
  left_eq := by
    have hcontent : ({ h with offset := h.offset + (left.take wanted).length } : Handle).content t =
        h.content t := rfl
    have htaken : left.drop (left.take wanted).length = left.drop wanted := by
      rw [List.length_take]
      rcases Nat.le_total wanted left.length with hle | hle
      · rw [Nat.min_eq_left hle]
      · rw [Nat.min_eq_right hle, List.drop_length, List.drop_eq_nil_of_le hle]
    rw [hcontent, ← List.drop_drop, hstands.left_eq, htaken]

variable [Machine]

/-- A read is refused: the number is no machine integer, it is below zero without being -1, or there
is no room for as many bytes. -/
def Refuses (left : List UInt8) (count : Int) : Prop :=
  ¬ Machine.Holds count ∨ count < -1 ∨
    ∃ wanted, Asks left count wanted ∧ Machine.memoryBound ≤ wanted

/-- Reads are served one after the other from the bytes that are left, and leave some behind. -/
inductive Serves : (left : List UInt8) → List Int → List (Except Failure (List UInt8)) →
    (behind : List UInt8) → Prop where
  /-- Nothing is asked for. -/
  | done {left : List UInt8} : Serves left [] [] left
  /-- The next bytes are handed out. -/
  | served {left behind : List UInt8} {count : Int} {wanted : Nat} {counts : List Int}
      {answers : List (Except Failure (List UInt8))} (hasks : Asks left count wanted)
      (hroom : wanted < Machine.memoryBound)
      (hrest : Serves (left.drop wanted) counts answers behind) :
      Serves left (count :: counts) (.ok (left.take wanted) :: answers) behind
  /-- Nothing is handed out. -/
  | refused {left behind : List UInt8} {count : Int} {failure : Failure} {counts : List Int}
      {answers : List (Except Failure (List UInt8))} (hrefuses : Refuses left count)
      (hrest : Serves left counts answers behind) :
      Serves left (count :: counts) (.error failure :: answers) behind

/-- The bytes that answers hand out, one after the other. -/
def handedOut (answers : List (Except Failure (List UInt8))) : List UInt8 :=
  answers.flatMap fun answer => answer.toOption.getD []

/-- Nothing is skipped and nothing is handed out twice. -/
theorem Serves.handedOut_append {left behind : List UInt8} {counts : List Int}
    {answers : List (Except Failure (List UInt8))} (h : Serves left counts answers behind) :
    handedOut answers ++ behind = left := by
  induction h with
  | done => rfl
  | @served left behind count wanted counts answers _ _ _ ih =>
    have hcons : handedOut (.ok (left.take wanted) :: answers) =
        left.take wanted ++ handedOut answers := rfl
    rw [hcons, List.append_assoc, ih, List.take_append_drop]
  | refused _ _ ih => exact ih

/-- One read of an open handle: it hands out the next bytes and goes on behind them, or it is
refused. -/
theorem read_cases {h : Handle} {t : Tree} {left : List UInt8} (hstands : h.StandsBefore t left)
    (count : Int) :
    (∃ wanted after, Asks left count wanted ∧ wanted < Machine.memoryBound ∧
      h.read t count = .ok (left.take wanted, after) ∧
      after.StandsBefore t (left.drop wanted)) ∨
    (Refuses left count ∧ ∃ failure, h.read t count = .error failure) := by
  have hopen := hstands.isOpen_eq
  have hleft := hstands.left_eq
  have hlength : ((h.content t).drop h.offset).length = left.length := by
    rw [← Sparse.length_toList, Sparse.toList_drop, hleft]
  by_cases hholds : Machine.Holds count
  swap
  · refine Or.inr ⟨Or.inl hholds, .lengthTooLarge, ?_⟩
    unfold read
    rw [if_pos hholds]
    rfl
  by_cases hlow : count < -1
  · refine Or.inr ⟨Or.inr (Or.inl hlow), .badLength, ?_⟩
    unfold read
    rw [if_neg (not_not.mpr hholds), if_pos hlow]
    rfl
  · generalize hwanted : (if count = -1 then ((h.content t).drop h.offset).length
      else count.toNat) = wanted
    have hasks : Asks left count wanted := by
      rw [← hwanted]
      split
      · exact Or.inl ⟨‹_›, hlength⟩
      · right
        omega
    rcases Nat.lt_or_ge wanted Machine.memoryBound with hroom | hnone
    · refine Or.inl ⟨wanted, _, hasks, hroom, ?_, hstands.advance wanted⟩
      have hbytes : (((h.content t).drop h.offset).take wanted).toList = left.take wanted := by
        rw [Sparse.toList_take, Sparse.toList_drop, hleft]
      unfold read
      simp only [hholds, hlow, hopen, hwanted, Machine.reserveBytes_of_lt hroom, hbytes, not_true,
        Bool.not_true, Bool.false_eq_true, if_false, Except.mapError, bind, Except.bind]
    · obtain ⟨shortage, hshortage⟩ := Machine.exists_reserveBytes_eq_error hnone
      refine Or.inr ⟨Or.inr (Or.inr ⟨wanted, hasks, hnone⟩), .memory shortage, ?_⟩
      unfold read
      simp only [hholds, hlow, hopen, hwanted, hshortage, not_true, Bool.not_true,
        Bool.false_eq_true, if_false, Except.mapError, bind, Except.bind]

end Fixtures.Handle
