import Fixtures.Proofs.Producer.Itemwise
import Fixtures.Proofs.Producer.Transition

/-!
# What a producer has still to hand out

A producer of a list that is not empty hands out its members over and over, from its position up to
its limit. Here these items are written down without the cycle: the item at a place is the member
at the remainder of the place. What clients are handed is told in these words.
-/

namespace Fixtures.Producer

/-- The member of a list at the remainder of a place. -/
def memberAt (xs : List Value) (hpos : 0 < xs.length) (place : Nat) : Value :=
  xs.get ⟨place % xs.length, Nat.mod_lt place hpos⟩

/-- As many members as are asked for, over and over, from the one at a place on. -/
def membersFrom (xs : List Value) (hpos : 0 < xs.length) (start count : Nat) : List Value :=
  (List.range count).map fun j => memberAt xs hpos (start + j)

variable {xs : List Value} {hpos : 0 < xs.length}

/-- As many members are there as are asked for. -/
@[simp] theorem length_membersFrom (start count : Nat) :
    (membersFrom xs hpos start count).length = count := by
  simp [membersFrom]

/-- The members from a place on are the one there and the ones behind it. -/
theorem membersFrom_succ (start count : Nat) :
    membersFrom xs hpos start (count + 1) =
      memberAt xs hpos start :: membersFrom xs hpos (start + 1) count := by
  simp [membersFrom, List.range_succ_eq_map, Function.comp_def, Nat.add_comm 1, Nat.add_assoc]

/-- Members that were taken from a list in a row repeat in their own order. -/
theorem memberAt_membersFrom {start count : Nat}
    (hcount : 0 < (membersFrom xs hpos start count).length) (place : Nat) :
    memberAt (membersFrom xs hpos start count) hcount place =
      memberAt xs hpos (start + place % count) := by
  simp [memberAt, membersFrom]

/-- From their own start, members that were taken from a list in a row come over and over. -/
theorem membersFrom_membersFrom {start count : Nat}
    (hcount : 0 < (membersFrom xs hpos start count).length) (number : Nat) :
    membersFrom (membersFrom xs hpos start count) hcount 0 number =
      (List.range number).map fun j => memberAt xs hpos (start + j % count) := by
  rw [membersFrom]
  simp only [memberAt_membersFrom, Nat.zero_add]

variable {p : Producer}

/-- A producer that has handed out what was left stands at its limit. -/
theorem advance_remaining (hwithin : p.position ≤ p.limit) :
    p.advance p.remaining = { p with position := p.limit } := by
  have hend : p.position + (p.limit - p.position) = p.limit := by omega
  simp only [advance, remaining, hend]

/-- A producer of members goes through them over and over. -/
theorem exists_cycle (hmembers : p.items.members? = some xs) (hpos : 0 < xs.length) :
    ∃ c, p.cycle = .ok c ∧ ∀ place, c.item place = memberAt xs hpos place := by
  have hsize : 0 < xs.toArray.size := by simpa using hpos
  refine ⟨⟨xs.toArray, hsize⟩, ?_, ?_⟩
  · simp only [cycle, hmembers, Cycle.ofList?, hsize, dif_pos]
  · intro place
    simp [Cycle.item, memberAt]

/-- A stretch of a cycle whose items are the members of a list. -/
theorem stretch_eq_membersFrom {c : Cycle} (hitem : ∀ place, c.item place = memberAt xs hpos place)
    (start count : Nat) : c.stretch start count = membersFrom xs hpos start count := by
  unfold Cycle.stretch membersFrom
  exact List.map_congr_left fun j _ => hitem (start + j)

/-- While something is left the next item is the member at the position. -/
theorem next_of_members (hmembers : p.items.members? = some xs) (hpos : 0 < xs.length)
    (hleft : 0 < p.remaining) : p.next = .ok (memberAt xs hpos p.position, p.advance 1) := by
  obtain ⟨c, hcycle, hitem⟩ := exists_cycle hmembers hpos
  rw [next_of_cycle hcycle hleft, hitem]

/-- Taking items gives the members from the position on, up to the limit. -/
theorem take_of_members (hmembers : p.items.members? = some xs) (hpos : 0 < xs.length)
    (count : Nat) : p.take count = (p.advance (min count p.remaining),
      .ok (membersFrom xs hpos p.position (min count p.remaining))) := by
  obtain ⟨c, hcycle, hitem⟩ := exists_cycle hmembers hpos
  unfold take
  by_cases hzero : min count p.remaining = 0
  · simp [hzero, membersFrom]
  · simp [hzero, hcycle, stretch_eq_membersFrom hitem]

/-- Draining gives the members from the position up to the limit. -/
theorem drain_of_members (hmembers : p.items.members? = some xs) (hpos : 0 < xs.length) :
    p.drain = (p.advance p.remaining,
      .ok (membersFrom xs hpos p.position p.remaining)) := by
  rw [drain, take_of_members hmembers hpos, Nat.min_self]

namespace Session

variable {session : Session} {name : String}

/-- As many calls as there are items to come give these items in order. -/
theorem run_next [Machine] (hfind : session.find? name = some p)
    (hmembers : p.items.members? = some xs) (hpos : 0 < xs.length) {count : Nat}
    (hcount : count ≤ p.remaining) :
    (session.run (List.replicate count (.act name .next))).2 =
      (membersFrom xs hpos p.position count).map .ok := by
  induction count generalizing session p with
  | zero => rfl
  | succ count ih =>
    have hnext : p.perform .next = (p.advance 1, .ok (memberAt xs hpos p.position)) := by
      simp only [Producer.perform, next_of_members hmembers hpos (by omega)]
    have hfewer : count ≤ (p.advance 1).remaining := by
      rw [remaining_advance]
      omega
    have hrest := ih (Registry.find?_insert_self session name (p.advance 1)) hmembers hfewer
    simp only [List.replicate_succ, Session.run, perform_act hfind, hnext, membersFrom_succ,
      List.map_cons]
    exact congrArg (List.cons _) hrest

end Session

end Fixtures.Producer
