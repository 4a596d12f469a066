import Fixtures.Proofs.Producer.Outcome

/-!
# Actions item by item

Clients that take items from a producer call for one after another: a search until an item equals
the wanted value, a container until there is no next item, a byte container until there is none or
an item is no byte. Here every action is described in such calls, together with the items that the
calls give. The actions themselves work out where the calls would stop without making them, and
`itemwise_result` says that both come to the same.
-/

namespace Fixtures

/-- Why a container cannot take an item as a byte, if it cannot. -/
def Container.refusal? (container : Container) (item : Value) : Option Producer.Failure :=
  match container.byteOf item with
  | .ok _ => none
  | .error failure => some failure

/-- A container has nothing against a byte. -/
theorem Container.refusal?_of_isByte {container : Container} {item : Value} (h : item.IsByte) :
    container.refusal? item = none := by
  obtain ⟨byte, hbyte⟩ := (container.byteOf_ok_iff item).mpr h
  rw [refusal?, hbyte]

namespace Producer

/-- How calls for items end. -/
inductive Ending (σ : Type) where
  /-- An item, or having enough of them, is a reason to stop. -/
  | stopped (reason : σ)
  /-- There is no next item. -/
  | failed (failure : Failure)

/-- What calls for items come to. -/
structure Pull (σ : Type) where
  /-- The items, in the order of the calls. -/
  items : List Value
  /-- The producer that is left. -/
  rest : Producer
  /-- How the calls end. -/
  ending : Ending σ

/-- Calls that follow on others. -/
def Pull.behind {σ : Type} (front : List Value) (pull : Pull σ) : Pull σ :=
  { pull with items := front ++ pull.items }

/-- Every item that is produced leaves one less. -/
theorem remaining_lt_of_next {p q : Producer} {item : Value} (h : p.next = .ok (item, q)) :
    q.remaining < p.remaining := by
  rcases Nat.eq_zero_or_pos p.remaining with hzero | hpos
  · rw [next_of_remaining_eq_zero hzero] at h
    cases h
  · rw [next_of_remaining_pos hpos] at h
    cases hcycle : p.cycle with
    | error failure => simp [hcycle, Except.map] at h
    | ok c =>
      obtain ⟨_, rfl⟩ : c.item p.position = item ∧ p.advance 1 = q := by
        simpa [hcycle, Except.map] using h
      rw [remaining_advance]
      omega

/-- Calls for items until one of them is a reason to stop. -/
def pullUntil {σ : Type} (stops : Value → Option σ) (p : Producer) : Pull σ :=
  match _h : p.next with
  | .error failure => ⟨[], p, .failed failure⟩
  | .ok (item, q) =>
    match stops item with
    | some reason => ⟨[item], q, .stopped reason⟩
    | none => (pullUntil stops q).behind [item]
termination_by p.remaining
decreasing_by exact remaining_lt_of_next ‹_›

/-- Calls for a number of items. -/
def pullUpTo : (count : Nat) → Producer → Pull Unit
  | 0, p => ⟨[], p, .stopped ()⟩
  | count + 1, p =>
    match p.next with
    | .error failure => ⟨[], p, .failed failure⟩
    | .ok (item, q) => (pullUpTo count q).behind [item]

/-- The course of an action: the items it has taken, the producer it leaves and its answer. -/
structure Course where
  /-- The items, in the order in which they have been taken. -/
  items : List Value
  /-- The producer that is left. -/
  rest : Producer
  /-- The answer. -/
  answer : Except Failure Value

/-- What is left of a course when its items are forgotten. -/
def Course.result (course : Course) : Producer × Except Failure Value :=
  (course.rest, course.answer)

/-- The course of an action that makes calls for items: having all of them is no failure. -/
def Pull.course {σ : Type} (pull : Pull σ) (atStop : σ → Except Failure Value) (atEnd : Value) :
    Course :=
  ⟨pull.items, pull.rest, match pull.ending with
    | .stopped reason => atStop reason
    | .failed .exhausted => .ok atEnd
    | .failed failure => .error failure⟩

/-- Calls for all items that are left, which are handed over together. -/
def gatherItemwise (p : Producer) (wrap : List Value → Value) : Course :=
  let pull : Pull Empty := p.pullUntil fun _ => none
  pull.course nofun (wrap pull.items)

/-- Calls for all items that are left, each of which has to be a byte. -/
def gatherBytesItemwise (p : Producer) (container : Container) : Course :=
  let pull := p.pullUntil container.refusal?
  pull.course .error (.bytes (pull.items.filterMap fun item => (container.byteOf item).toOption))

/-- An action item by item. Containers ask for room before they call for the first item. -/
def itemwise [Machine] (p : Producer) : Action → Course
  | .next =>
    match p.next with
    | .error failure => ⟨[], p, .error failure⟩
    | .ok (item, q) => ⟨[item], q, .ok item⟩
  | .take count =>
    let pull := p.pullUpTo count
    pull.course (fun _ => .ok (.list pull.items)) (.list pull.items)
  | .search wanted =>
    (p.pullUntil fun item => if item.same wanted then some () else none).course
      (fun _ => .ok (.bool true)) (.bool false)
  | .collect container =>
    match container.reserve p with
    | .error failure => ⟨[], p, .error failure⟩
    | .ok () =>
      match container with
      | .list => p.gatherItemwise .list
      | .tuple => p.gatherItemwise .tuple
      | .bytes | .byteArray => p.gatherBytesItemwise container
  | .collectBehind (.list front) =>
    match Container.reserveBehind front.length p with
    | .error failure => ⟨[], p, .error failure⟩
    | .ok () => p.gatherItemwise fun items => .list (front ++ items)
  | action => ⟨[], (p.perform action).1, (p.perform action).2⟩

section Calls

variable {σ : Type} {stops : Value → Option σ} {p : Producer}

/-- Calls end where there is no next item. -/
theorem pullUntil_of_error {failure : Failure} (h : p.next = .error failure) :
    p.pullUntil stops = ⟨[], p, .failed failure⟩ := by
  rw [pullUntil]
  split
  · rename_i refusal hnext
    rw [h] at hnext
    rw [Except.error.inj hnext]
  · rename_i hnext
    rw [h] at hnext
    cases hnext

/-- Calls go on behind an item or stop with it. -/
theorem pullUntil_of_ok {q : Producer} {item : Value} (h : p.next = .ok (item, q)) :
    p.pullUntil stops = match stops item with
      | some reason => ⟨[item], q, .stopped reason⟩
      | none => (q.pullUntil stops).behind [item] := by
  rw [pullUntil]
  split
  · rename_i hnext
    rw [h] at hnext
    cases hnext
  · rename_i item' q' hnext
    rw [h] at hnext
    obtain ⟨rfl, rfl⟩ : item = item' ∧ q = q' := by simpa using hnext
    rfl

variable {c : Cycle} (hcycle : p.cycle = .ok c)
include hcycle

/-- While something is left the next item is the one of the cycle. -/
theorem next_of_cycle (hpos : 0 < p.remaining) :
    p.next = .ok (c.item p.position, p.advance 1) := by
  rw [next_of_remaining_pos hpos, hcycle, Except.map]

/-- Items that are no reason to stop are passed over. -/
theorem pullUntil_of_pass {count : Nat} (hcount : count ≤ p.remaining)
    (hpass : ∀ j < count, stops (c.item (p.position + j)) = none) :
    p.pullUntil stops =
      ((p.advance count).pullUntil stops).behind (c.stretch p.position count) := by
  induction count generalizing p with
  | zero => rfl
  | succ count ih =>
    have hfirst : stops (c.item p.position) = none := hpass 0 (by omega)
    have hrest := ih (p := p.advance 1) hcycle (by rw [remaining_advance]; omega) (by
      intro j hj
      have h := hpass (j + 1) (by omega)
      rwa [← Nat.add_assoc, Nat.add_right_comm] at h)
    rw [pullUntil_of_ok (next_of_cycle hcycle (by omega)), hfirst]
    simp only [hrest, advance_advance, Pull.behind, Nat.add_comm 1 count, Cycle.stretch_succ]
    rfl

/-- Where no item that is left is a reason to stop, all of them are taken. -/
theorem pullUntil_of_pass_all (hpass : ∀ j < p.remaining, stops (c.item (p.position + j)) = none) :
    p.pullUntil stops = ⟨c.stretch p.position p.remaining, p.advance p.remaining,
      .failed .exhausted⟩ := by
  have hend : (p.advance p.remaining).next = .error .exhausted :=
    next_of_remaining_eq_zero (by rw [remaining_advance, Nat.sub_self])
  rw [pullUntil_of_pass hcycle (Nat.le_refl _) hpass, pullUntil_of_error hend, Pull.behind,
    List.append_nil]

/-- The first item that is a reason to stop is the last one that is taken. -/
theorem pullUntil_of_stop {before : Nat} {reason : σ} (hbefore : before < p.remaining)
    (hpass : ∀ j < before, stops (c.item (p.position + j)) = none)
    (hstop : stops (c.item (p.position + before)) = some reason) :
    p.pullUntil stops = ⟨c.stretch p.position (before + 1), p.advance (before + 1),
      .stopped reason⟩ := by
  have hnext : (p.advance before).next =
      .ok (c.item (p.position + before), p.advance (before + 1)) := by
    have h := next_of_cycle (p := p.advance before) hcycle (by rw [remaining_advance]; omega)
    rwa [advance_advance] at h
  rw [pullUntil_of_pass hcycle (by omega) hpass, pullUntil_of_ok hnext, hstop, Pull.behind,
    Cycle.stretch_add]
  rfl

/-- Calls for a number of items give as many, or all that are left. -/
theorem pullUpTo_of_cycle (count : Nat) :
    p.pullUpTo count = ⟨c.stretch p.position (min count p.remaining),
      p.advance (min count p.remaining),
      if count ≤ p.remaining then .stopped () else .failed .exhausted⟩ := by
  induction count generalizing p with
  | zero => simp [pullUpTo, Cycle.stretch]
  | succ count ih =>
    rcases Nat.eq_zero_or_pos p.remaining with hzero | hpos
    · simp [pullUpTo, next_of_remaining_eq_zero hzero, hzero, Cycle.stretch]
    · have hmin : min (count + 1) p.remaining = min count (p.advance 1).remaining + 1 := by
        rw [remaining_advance]
        omega
      have hle : count + 1 ≤ p.remaining ↔ count ≤ (p.advance 1).remaining := by
        rw [remaining_advance]
        omega
      simp only [pullUpTo, next_of_cycle hcycle hpos, ih (p := p.advance 1) hcycle, Pull.behind,
        hmin, hle, Cycle.stretch_succ, advance_advance, Nat.add_comm 1]
      rfl

end Calls

/-- A producer without a cycle has items left that it cannot give, which is not having none. -/
theorem ne_exhausted_of_cycle {p : Producer} {failure : Failure} (h : p.cycle = .error failure) :
    failure ≠ .exhausted := by
  rintro rfl
  unfold cycle at h
  split at h
  · cases h
  · split at h <;> cases h

/-- Calls that fail otherwise than for want of items make the action fail. -/
theorem Pull.course_of_failed {σ : Type} {items : List Value} {rest : Producer}
    {failure : Failure} (hne : failure ≠ .exhausted) (atStop : σ → Except Failure Value)
    (atEnd : Value) :
    Pull.course ⟨items, rest, .failed failure⟩ atStop atEnd = ⟨items, rest, .error failure⟩ := by
  unfold Pull.course
  split
  · rename_i hending
    cases hending
  · rename_i hending
    exact absurd (Ending.failed.inj hending) hne
  · rename_i hending
    rw [Ending.failed.inj hending]

/-- A producer has nothing left, or has no cycle, or has a next item. -/
theorem next_cases (p : Producer) :
    (p.remaining = 0 ∧ p.next = .error .exhausted) ∨
      (p.remaining ≠ 0 ∧ ∃ failure, p.cycle = .error failure ∧ failure ≠ .exhausted ∧
        p.next = .error failure) ∨
      (p.remaining ≠ 0 ∧ ∃ c, p.cycle = .ok c) := by
  rcases Nat.eq_zero_or_pos p.remaining with hzero | hpos
  · exact Or.inl ⟨hzero, next_of_remaining_eq_zero hzero⟩
  · right
    cases hcycle : p.cycle with
    | error failure =>
      have hnext : p.next = .error failure := by
        rw [next_of_remaining_pos hpos, hcycle, Except.map]
      exact Or.inl ⟨by omega, failure, rfl, ne_exhausted_of_cycle hcycle, hnext⟩
    | ok c => exact Or.inr ⟨by omega, c, rfl⟩

/-- Gathering item by item comes to taking all items at once. -/
theorem gatherItemwise_result (p : Producer) (wrap : List Value → Value) :
    (p.gatherItemwise wrap).result = p.drain.map id (Except.map wrap) := by
  unfold gatherItemwise drain take
  rcases p.next_cases with ⟨hzero, hnext⟩ | ⟨hne, failure, hcycle, hcause, hnext⟩ | ⟨hne, c, hcycle⟩
  · simp [hzero, pullUntil_of_error hnext, Pull.course, Course.result, Except.map]
  · simp [hne, hcycle, pullUntil_of_error hnext, Pull.course_of_failed hcause, Course.result,
      Except.map]
  · have hpull : p.pullUntil (fun _ => (none : Option Empty)) =
        ⟨c.stretch p.position p.remaining, p.advance p.remaining, .failed .exhausted⟩ :=
      pullUntil_of_pass_all hcycle fun _ _ => rfl
    simp [hne, hcycle, hpull, Pull.course, Course.result, Except.map]

/-- Gathering bytes item by item comes to looking for the first item that is no byte. -/
theorem gatherBytesItemwise_result (p : Producer) (container : Container) :
    (p.gatherBytesItemwise container).result =
      (p.drainBytes container).map id (Except.map Value.bytes) := by
  unfold gatherBytesItemwise drainBytes
  rcases p.next_cases with ⟨hzero, hnext⟩ | ⟨hne, failure, hcycle, hcause, hnext⟩ | ⟨hne, c, hcycle⟩
  · simp [hzero, pullUntil_of_error hnext, Pull.course, Course.result, Except.map]
  · simp [hne, hcycle, pullUntil_of_error hnext, Pull.course_of_failed hcause, Course.result,
      Except.map]
  · cases hrefused : container.firstRefused? (c.round p.position p.remaining) with
    | none =>
      have hpass : ∀ j < p.remaining, container.refusal? (c.item (p.position + j)) = none := by
        intro j hj
        have hbyte := Container.firstRefused?_eq_none hrefused _ (c.item_mem_round p.position hj)
        exact Container.refusal?_of_isByte hbyte
      have hpull := pullUntil_of_pass_all hcycle hpass
      simp [hne, hcycle, hrefused, hpull, Pull.course, Course.result, Except.map]
    | some refused =>
      obtain ⟨before, failure⟩ := refused
      obtain ⟨hlt, hfailure, hbytes⟩ := Container.firstRefused?_eq_some hrefused
      have hlength := c.length_round_le p.position p.remaining
      have hpass : ∀ j < before, container.refusal? (c.item (p.position + j)) = none := by
        intro j hj
        have hbyte := hbytes j hj
        rw [Cycle.getElem_round] at hbyte
        exact Container.refusal?_of_isByte hbyte
      have hstop : container.refusal? (c.item (p.position + before)) = some failure := by
        rw [Cycle.getElem_round] at hfailure
        rw [Container.refusal?, hfailure]
      have hpull := pullUntil_of_stop hcycle (by omega) hpass hstop
      simp [hne, hcycle, hrefused, hpull, Pull.course, Course.result, Except.map]

/-- Searching item by item comes to looking through one round of the cycle. -/
theorem search_itemwise_result [Machine] (p : Producer) (wanted : Value) :
    (p.itemwise (.search wanted)).result = p.perform (.search wanted) := by
  simp only [itemwise, perform, search]
  rcases p.next_cases with ⟨hzero, hnext⟩ | ⟨hne, failure, hcycle, hcause, hnext⟩ | ⟨hne, c, hcycle⟩
  · simp [hzero, pullUntil_of_error hnext, Pull.course, Course.result, Except.map]
  · simp [hne, hcycle, pullUntil_of_error hnext, Pull.course_of_failed hcause, Course.result,
      Except.map]
  · cases hfound : (c.round p.position p.remaining).findIdx? fun item => item.same wanted with
    | none =>
      have hpull : p.pullUntil (fun item => if item.same wanted then some () else none) = _ :=
        pullUntil_of_pass_all hcycle (by
          intro j hj
          have hdiffers := List.findIdx?_eq_none_iff.mp hfound _ (c.item_mem_round p.position hj)
          simp [hdiffers])
      simp [hne, hcycle, hfound, hpull, Pull.course, Course.result, Except.map]
    | some before =>
      obtain ⟨hlt, hsame, hdiffer⟩ := List.findIdx?_eq_some_iff_getElem.mp hfound
      have hlength := c.length_round_le p.position p.remaining
      have hbefore : before < p.remaining := by omega
      have hpull : p.pullUntil (fun item => if item.same wanted then some () else none) = _ :=
        pullUntil_of_stop hcycle hbefore (by
          intro j hj
          have hdiffers := hdiffer j hj
          rw [Cycle.getElem_round] at hdiffers
          simp [hdiffers]) (by
          rw [Cycle.getElem_round] at hsame
          exact if_pos hsame)
      simp [hne, hcycle, hfound, hpull, Pull.course, Course.result, Except.map]

/-- Taking a number of items one by one comes to taking them at once. -/
theorem take_itemwise_result [Machine] (p : Producer) (count : Nat) :
    (p.itemwise (.take count)).result = p.perform (.take count) := by
  simp only [itemwise, perform, take]
  rcases p.next_cases with ⟨hzero, hnext⟩ | ⟨hne, failure, hcycle, hcause, hnext⟩ | ⟨hne, c, hcycle⟩
  · cases count <;> simp [pullUpTo, hzero, hnext, Pull.course, Course.result, Except.map]
  · cases count with
    | zero => simp [pullUpTo, Pull.course, Course.result, Except.map]
    | succ count =>
      simp [pullUpTo, hne, hcycle, hnext, Pull.course_of_failed hcause, Course.result, Except.map]
  · have hcourse : ((p.pullUpTo count).course
        (fun _ => .ok (.list (p.pullUpTo count).items)) (.list (p.pullUpTo count).items)).result =
        (p.advance (min count p.remaining),
          .ok (.list (c.stretch p.position (min count p.remaining)))) := by
      rw [pullUpTo_of_cycle hcycle]
      by_cases hle : count ≤ p.remaining
      · simp [hle, Pull.course, Course.result]
      · simp [hle, Pull.course, Course.result]
    rw [hcourse]
    by_cases hzero : min count p.remaining = 0
    · rw [hzero]
      rfl
    · rw [if_neg hzero, hcycle]
      rfl

/-- **Every action comes to its calls for items**: item by item it leaves the same producer and
answers the same. -/
theorem itemwise_result [Machine] (p : Producer) (action : Action) :
    (p.itemwise action).result = p.perform action := by
  cases action with
  | next =>
    simp only [itemwise, perform]
    cases p.next <;> rfl
  | take count => exact p.take_itemwise_result count
  | search wanted => exact p.search_itemwise_result wanted
  | collect container =>
    simp only [itemwise, perform, collect]
    cases container.reserve p with
    | error failure => rfl
    | ok =>
      cases container with
      | list => exact p.gatherItemwise_result .list
      | tuple => exact p.gatherItemwise_result .tuple
      | bytes => exact p.gatherBytesItemwise_result .bytes
      | byteArray => exact p.gatherBytesItemwise_result .byteArray
  | collectBehind front =>
    cases front with
    | list front =>
      simp only [itemwise, perform, collectBehind]
      cases Container.reserveBehind front.length p with
      | error failure => rfl
      | ok => exact p.gatherItemwise_result _
    | _ => rfl
  | _ => rfl

end Producer

end Fixtures
