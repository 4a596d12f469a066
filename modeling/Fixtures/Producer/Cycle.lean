import Fixtures.Value.Basic

/-!
# Cycles

A cycle is members that are gone through in order, over and over: the item at a place is the member
at the remainder of the place. A stretch is the items from one place on. A round is a stretch that
meets each member once, so what no item of a round is, no item is at all.
-/

namespace Fixtures

/-- Members that are gone through over and over. There is at least one. -/
structure Cycle where
  /-- The members. -/
  members : Array Value
  /-- There is a member. -/
  size_pos : 0 < members.size

namespace Cycle

/-- The cycle of a list that is not empty. -/
def ofList? (xs : List Value) : Option Cycle :=
  if h : 0 < xs.toArray.size then some ⟨xs.toArray, h⟩ else none

/-- The item at a place. -/
def item (c : Cycle) (place : Nat) : Value :=
  have := Nat.mod_lt place c.size_pos
  c.members[place % c.members.size]

/-- A number of items from a place on. -/
def stretch (c : Cycle) (start count : Nat) : List Value :=
  (List.range count).map fun j => c.item (start + j)

/-- The items from a place on, up to a number and no more than go round once. -/
def round (c : Cycle) (start count : Nat) : List Value :=
  c.stretch start (min count c.members.size)

/-- A stretch has as many items as are asked for. -/
@[simp] theorem length_stretch (c : Cycle) (start count : Nat) :
    (c.stretch start count).length = count := by
  simp [stretch]

/-- A stretch is a shorter one and the stretch behind it. -/
theorem stretch_add (c : Cycle) (start m n : Nat) :
    c.stretch start (m + n) = c.stretch start m ++ c.stretch (start + m) n := by
  simp [stretch, List.range_add, Nat.add_assoc, Function.comp_def]

/-- A stretch is its first item and the stretch behind it. -/
theorem stretch_succ (c : Cycle) (start count : Nat) :
    c.stretch start (count + 1) = c.item start :: c.stretch (start + 1) count := by
  rw [Nat.add_comm count 1, stretch_add]
  rfl

/-- A round has no more items than the stretch it is cut from. -/
theorem length_round_le (c : Cycle) (start count : Nat) : (c.round start count).length ≤ count := by
  rw [round, length_stretch]
  exact Nat.min_le_left count c.members.size

/-- An item of a round is the item of the cycle at its place. -/
theorem getElem_round {c : Cycle} {start count j : Nat}
    (hj : j < (c.round start count).length) : (c.round start count)[j] = c.item (start + j) := by
  simp [round, stretch]

/-- A round meets every item of the stretch it is cut from. -/
theorem item_mem_round (c : Cycle) (start : Nat) {count j : Nat} (hj : j < count) :
    c.item (start + j) ∈ c.round start count := by
  have hrepeat : c.item (start + j) = c.item (start + j % c.members.size) := by
    simp [item]
  have hsmall : j % c.members.size < c.members.size := Nat.mod_lt _ c.size_pos
  have hle : j % c.members.size ≤ j := Nat.mod_le _ _
  rw [hrepeat]
  exact List.mem_map.mpr ⟨j % c.members.size, List.mem_range.mpr (by omega), rfl⟩

end Cycle

end Fixtures
