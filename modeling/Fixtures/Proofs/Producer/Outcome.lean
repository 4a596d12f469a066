import Fixtures.Producer.Action

/-!
# What an action can come to

An action on a producer has one of four outcomes: it fails and nothing has happened, it takes some
of the items that are left, it edits the list of items, or a byte container is handed an item that
is no byte. Invariants of producers are derived from this one case distinction, so that no other
proof looks into the operations.
-/

namespace Fixtures

/-- A value that counts as an integer from 0 to 255. -/
def Value.IsByte (v : Value) : Prop :=
  ∃ n, v.asInteger? = some n ∧ 0 ≤ n ∧ n < 256

/-- A container that holds bytes. -/
def Container.HoldsBytes (container : Container) : Prop :=
  container = .bytes ∨ container = .byteArray

/-- A container takes a value as a byte exactly if the value is one. -/
theorem Container.byteOf_ok_iff (container : Container) (v : Value) :
    (∃ byte, container.byteOf v = .ok byte) ↔ v.IsByte := by
  unfold Container.byteOf Value.IsByte
  cases hn : v.asInteger? with
  | none => simp
  | some n =>
    by_cases hrange : 0 ≤ n ∧ n < 256
    · simp [hrange]
    · simp [hrange]

/-- The value that a container does not take as a byte is the failure's cause: what is no integer
is told by its kind, and an integer by the range it is not in. -/
theorem Container.byteOf_error_iff {container : Container} {v : Value}
    {failure : Producer.Failure} : container.byteOf v = .error failure ↔
      ¬ v.IsByte ∧ failure = match v.asInteger? with
        | none => .notAnInteger v.kindName
        | some _ => .byteOutOfRange container := by
  unfold Container.byteOf Value.IsByte
  cases hn : v.asInteger? with
  | none => simp [eq_comm]
  | some n =>
    by_cases hrange : 0 ≤ n ∧ n < 256
    · simp [hrange]
    · simp [hrange, eq_comm]

/-- The first refused item of a list is the first one that is no byte. -/
theorem Container.firstRefused?_eq_some {container : Container} {items : List Value}
    {before : Nat} {failure : Producer.Failure}
    (h : container.firstRefused? items = some (before, failure)) :
    ∃ hlt : before < items.length, container.byteOf items[before] = .error failure ∧
      ∀ j (hj : j < before), items[j].IsByte := by
  unfold Container.firstRefused? at h
  obtain ⟨front, ⟨item, place⟩, rest, hsplit, hitem, hfront⟩ :=
    List.findSome?_eq_some_iff.mp h
  have hget : items.zipIdx[front.length]? = some (item, place) := by rw [hsplit]; simp
  obtain ⟨item, hvalue, rfl, hplace⟩ :
      ∃ v, items[front.length]? = some v ∧ v = item ∧ front.length = place := by
    simpa [List.getElem?_zipIdx] using hget
  cases hbyte : container.byteOf item with
  | ok byte => simp [hbyte] at hitem
  | error refusal =>
    obtain ⟨hbefore, hfailure⟩ : place = before ∧ refusal = failure := by
      simpa [hbyte, Prod.ext_iff] using hitem
    subst hbefore hfailure hplace
    obtain ⟨hlt, hvalue⟩ := List.getElem?_eq_some_iff.mp hvalue
    refine ⟨hlt, by rwa [hvalue], ?_⟩
    intro j hj
    have hfront_get : front[j]? = some (items[j], j) := by
      have hzip : items.zipIdx[j]? = some (items[j], j) := by simp
      rwa [hsplit, List.getElem?_append_left hj] at hzip
    have hpass := hfront _ (List.mem_of_getElem? hfront_get)
    cases hj : container.byteOf items[j] with
    | ok byte => exact (container.byteOf_ok_iff _).mp ⟨byte, hj⟩
    | error refusal => simp [hj] at hpass

/-- Where no item of a list is refused all of them are bytes. -/
theorem Container.firstRefused?_eq_none {container : Container} {items : List Value}
    (h : container.firstRefused? items = none) : ∀ item ∈ items, item.IsByte := by
  intro item hitem
  obtain ⟨j, hj, rfl⟩ := List.mem_iff_getElem.mp hitem
  unfold Container.firstRefused? at h
  have hmem : (items[j], j) ∈ items.zipIdx :=
    List.mk_mem_zipIdx_iff_getElem?.mpr (List.getElem?_eq_getElem hj)
  have hpass := List.findSome?_eq_none_iff.mp h _ hmem
  cases hbyte : container.byteOf items[j] with
  | ok byte => exact (container.byteOf_ok_iff _).mp ⟨byte, hbyte⟩
  | error refusal => simp [hbyte] at hpass

namespace Producer

/-- The failures of a byte container that was handed an item that is no byte. -/
def Failure.RefusesByte : Failure → Prop
  | .notAnInteger _ => True
  | .byteOutOfRange _ => True
  | _ => False

/-- The actions by which a client changes the list of items. -/
def Action.EditsItems : Action → Prop
  | .assignItems _ => True
  | .append _ => True
  | .setItem _ _ => True
  | .pop _ => True
  | .clear => True
  | _ => False

/-- What an action on a producer can come to: the producer it leaves and its answer. -/
inductive Outcome (p : Producer) : Action → Producer × Except Failure Value → Prop where
  /-- It fails, and nothing has happened. -/
  | failed {action : Action} {failure : Failure} (hcause : ¬ failure.RefusesByte) :
    Outcome p action (p, .error failure)
  /-- It takes some of the items that are left, or none. -/
  | taken {action : Action} {answer : Value} (count : Nat) (hcount : count ≤ p.remaining) :
    Outcome p action (p.advance count, .ok answer)
  /-- It edits the list of items. -/
  | edited {action : Action} {answer : Value} (items : Value) (hedits : action.EditsItems) :
    Outcome p action (p.withItems items, .ok answer)
  /-- A byte container takes the items up to the first that is no byte. -/
  | spoiled {container : Container} {failure : Failure} (c : Cycle) (before : Nat)
    (hholds : container.HoldsBytes) (hcycle : p.cycle = .ok c) (hbefore : before < p.remaining)
    (hbytes : ∀ j < before, (c.item (p.position + j)).IsByte)
    (hrefused : container.byteOf (c.item (p.position + before)) = .error failure) :
    Outcome p (.collect container) (p.advance (before + 1), .error failure)

/-- The only failures to find a cycle are that there are no items and that they have no length. -/
theorem not_refusesByte_of_cycle {p : Producer} {failure : Failure}
    (h : p.cycle = .error failure) : ¬ failure.RefusesByte := by
  unfold cycle at h
  split at h
  · cases h
    exact id
  · split at h
    · cases h
      exact id
    · cases h

/-- A claim is refused because of its size and never because of an item. -/
private theorem not_refusesByte_of_lengthHint {p : Producer} {failure : Failure}
    (h : p.lengthHint = .error failure) : ¬ failure.RefusesByte := by
  unfold lengthHint at h
  split at h
  · cases h
  · cases h
    exact id

private theorem not_refusesByte_of_mapError {room : Except Machine.Shortage Unit}
    {failure : Failure} (h : room.mapError Failure.memory = .error failure) :
    ¬ failure.RefusesByte := by
  cases room with
  | ok => cases h
  | error shortage =>
    cases h
    exact id

/-- A calculation in two steps fails in the first one or in the second. -/
private theorem bind_eq_error {α β : Type} {first : Except Failure α}
    {second : α → Except Failure β} {failure : Failure}
    (h : (first >>= second) = .error failure) :
    first = .error failure ∨ ∃ a, second a = .error failure := by
  cases first with
  | error refusal => exact Or.inl (congrArg _ (Except.error.inj h))
  | ok a => exact Or.inr ⟨a, h⟩

/-- Room is refused because of the claim and never because of an item. -/
theorem not_refusesByte_of_reserve [Machine] {container : Container} {p : Producer}
    {failure : Failure} (h : container.reserve p = .error failure) : ¬ failure.RefusesByte := by
  have hroom {room : Nat → Except Machine.Shortage Unit}
      (h : (p.lengthHint >>= fun hint => (room hint).mapError Failure.memory) = .error failure) :
      ¬ failure.RefusesByte := by
    rcases bind_eq_error h with hhint | ⟨hint, hshort⟩
    · exact not_refusesByte_of_lengthHint hhint
    · exact not_refusesByte_of_mapError hshort
  cases container with
  | byteArray => cases h
  | list => exact hroom h
  | tuple => exact hroom h
  | bytes => exact hroom h

/-- Room behind the members of a list is refused because of the claim and never because of an
item. -/
theorem not_refusesByte_of_reserveBehind [Machine] {length : Nat} {p : Producer} {failure : Failure}
    (h : Container.reserveBehind length p = .error failure) : ¬ failure.RefusesByte := by
  unfold Container.reserveBehind at h
  rcases bind_eq_error h with hhint | ⟨hint, hshort⟩
  · exact not_refusesByte_of_lengthHint hhint
  · split at hshort
    · exact not_refusesByte_of_mapError hshort
    · cases hshort

/-- Taking items fails at once, because there is no cycle, or takes no more than are left. -/
theorem take_cases (p : Producer) (count : Nat) :
    (∃ failure, ¬ failure.RefusesByte ∧ p.take count = (p, .error failure)) ∨
      ∃ n ≤ p.remaining, ∃ items, p.take count = (p.advance n, .ok items) := by
  unfold take
  by_cases hzero : min count p.remaining = 0
  · exact Or.inr ⟨0, Nat.zero_le _, [], by simp [hzero]⟩
  · cases hcycle : p.cycle with
    | error failure =>
      exact Or.inl ⟨failure, not_refusesByte_of_cycle hcycle, by simp [hzero]⟩
    | ok c =>
      exact Or.inr ⟨min count p.remaining, Nat.min_le_right _ _, _, by simp [hzero]; rfl⟩

/-- A search fails at once, because there is no cycle, or takes no more items than are left. -/
theorem search_cases (p : Producer) (wanted : Value) :
    (∃ failure, ¬ failure.RefusesByte ∧ p.search wanted = (p, .error failure)) ∨
      ∃ n ≤ p.remaining, ∃ found, p.search wanted = (p.advance n, .ok found) := by
  unfold search
  by_cases hzero : p.remaining = 0
  · exact Or.inr ⟨0, Nat.zero_le _, false, by simp [hzero]⟩
  · cases hcycle : p.cycle with
    | error failure =>
      exact Or.inl ⟨failure, not_refusesByte_of_cycle hcycle, by simp [hzero]⟩
    | ok c =>
      cases hfound : (c.round p.position p.remaining).findIdx? fun item => item.same wanted with
      | none => exact Or.inr ⟨p.remaining, Nat.le_refl _, false, by simp [hzero, hfound]⟩
      | some before =>
        have hlt : before < (c.round p.position p.remaining).length :=
          (List.findIdx?_eq_some_iff_getElem.mp hfound).1
        have hlength := c.length_round_le p.position p.remaining
        exact Or.inr ⟨before + 1, by omega, true, by simp [hzero, hfound]⟩

/-- Taking items as bytes fails at once, because there is no cycle, or takes all that are left, or
takes the bytes up to the first item that is no byte, and that item. -/
theorem drainBytes_cases (p : Producer) (container : Container) :
    (∃ failure, ¬ failure.RefusesByte ∧ p.drainBytes container = (p, .error failure)) ∨
      (∃ n ≤ p.remaining, ∃ bytes, p.drainBytes container = (p.advance n, .ok bytes)) ∨
      ∃ c before failure, p.cycle = .ok c ∧ before < p.remaining ∧
        (∀ j < before, (c.item (p.position + j)).IsByte) ∧
        container.byteOf (c.item (p.position + before)) = .error failure ∧
        p.drainBytes container = (p.advance (before + 1), .error failure) := by
  unfold drainBytes
  by_cases hzero : p.remaining = 0
  · exact Or.inr (Or.inl ⟨0, Nat.zero_le _, [], by simp [hzero]⟩)
  · cases hcycle : p.cycle with
    | error failure =>
      exact Or.inl ⟨failure, not_refusesByte_of_cycle hcycle, by simp [hzero]⟩
    | ok c =>
      right
      cases hrefused : container.firstRefused? (c.round p.position p.remaining) with
      | none => exact Or.inl ⟨p.remaining, Nat.le_refl _, _, by simp [hzero, hrefused]; rfl⟩
      | some refused =>
        obtain ⟨before, failure⟩ := refused
        obtain ⟨hlt, hfailure, hbytes⟩ := Container.firstRefused?_eq_some hrefused
        have hlength := c.length_round_le p.position p.remaining
        rw [Cycle.getElem_round] at hfailure
        refine Or.inr ⟨c, before, failure, rfl, by omega, ?_, hfailure, by simp [hzero, hrefused]⟩
        intro j hj
        have hbyte := hbytes j hj
        rwa [Cycle.getElem_round] at hbyte

/-- Gathering into a container has the outcomes of an action. -/
theorem collect_outcome [Machine] (p : Producer) (container : Container) :
    Outcome p (.collect container) (p.collect container) := by
  unfold collect
  cases hroom : container.reserve p with
  | error failure => exact .failed (not_refusesByte_of_reserve hroom)
  | ok =>
    have hdrain (wrap : List Value → Value) :
        Outcome p (.collect container) (p.drain.map id (Except.map wrap)) := by
      rcases p.take_cases p.remaining with ⟨failure, hcause, h⟩ | ⟨n, hn, items, h⟩
      · rw [drain, h]
        exact .failed hcause
      · rw [drain, h]
        exact .taken n hn
    have hdrainBytes (hholds : container.HoldsBytes) : Outcome p (.collect container)
        ((p.drainBytes container).map id (Except.map Value.bytes)) := by
      rcases p.drainBytes_cases container with ⟨failure, hcause, h⟩ | ⟨n, hn, bytes, h⟩ |
        ⟨c, before, failure, hcycle, hbefore, hbytes, hrefused, h⟩
      · rw [h]
        exact .failed hcause
      · rw [h]
        exact .taken n hn
      · rw [h]
        exact .spoiled c before hholds hcycle hbefore hbytes hrefused
    cases container with
    | list => exact hdrain .list
    | tuple => exact hdrain .tuple
    | bytes => exact hdrainBytes (Or.inl rfl)
    | byteArray => exact hdrainBytes (Or.inr rfl)

/-- Gathering behind the members of a list has the outcomes of an action. -/
theorem collectBehind_outcome [Machine] (p : Producer) (front : Value) :
    Outcome p (.collectBehind front) (p.collectBehind front) := by
  cases front with
  | list front =>
    simp only [collectBehind]
    cases hroom : Container.reserveBehind front.length p with
    | error failure => exact .failed (not_refusesByte_of_reserveBehind hroom)
    | ok =>
      rcases p.take_cases p.remaining with ⟨failure, hcause, h⟩ | ⟨n, hn, items, h⟩
      · simp only [drain, h]
        exact .failed hcause
      · simp only [drain, h]
        exact .taken n hn
  | _ => exact .failed id

/-- Every edit of the list of items has the outcomes of an action. -/
theorem edit_outcome [Machine] (p : Producer) (action : Action) (hedits : action.EditsItems) :
    Outcome p action (p.perform action) := by
  cases action with
  | assignItems items => exact .edited items hedits
  | append item =>
    simp only [perform, append]
    split
    · exact .edited _ hedits
    · exact .failed id
  | setItem place item =>
    simp only [perform, setItem]
    split
    · exact .failed id
    · split
      · split
        · exact .edited _ hedits
        · exact .failed id
      · exact .failed id
  | pop place =>
    simp only [perform, pop]
    split
    · split
      · exact .failed id
      · split
        · exact .failed id
        · split
          · exact .edited _ hedits
          · exact .failed id
    · exact .failed id
  | clear =>
    simp only [perform, clear]
    split
    · exact .edited _ hedits
    · exact .failed id
  | _ => exact absurd hedits id

/-- An observation fails or shows something, and takes no item. -/
theorem observe_outcome [Machine] (p : Producer) (observation : Observation) :
    Outcome p (.observe observation) (p.perform (.observe observation)) := by
  cases observation with
  | length => exact .failed id
  | hash => exact .failed id
  | lengthHint =>
    cases hhint : p.lengthHint with
    | error failure =>
      have hperform : p.perform (.observe .lengthHint) = (p, .error failure) := by
        simp [perform, observe, hhint, Functor.map, Except.map]
      rw [hperform]
      exact .failed (not_refusesByte_of_lengthHint hhint)
    | ok hint =>
      have hperform : p.perform (.observe .lengthHint) = (p, .ok (.int hint)) := by
        simp [perform, observe, hhint, Functor.map, Except.map]
      rw [hperform]
      exact .taken 0 (Nat.zero_le _)
  | _ => exact .taken 0 (Nat.zero_le _)

/-- Taking the next item has the outcomes of an action. -/
theorem next_outcome [Machine] (p : Producer) : Outcome p .next (p.perform .next) := by
  rcases Nat.eq_zero_or_pos p.remaining with hzero | hpos
  · simp only [perform, next_of_remaining_eq_zero hzero]
    exact .failed id
  · cases hcycle : p.cycle with
    | error failure =>
      simp only [perform, next_of_remaining_pos hpos, hcycle, Except.map]
      exact .failed (not_refusesByte_of_cycle hcycle)
    | ok c =>
      simp only [perform, next_of_remaining_pos hpos, hcycle, Except.map]
      exact .taken 1 hpos

/-- Every action has one of the four outcomes. -/
theorem perform_outcome [Machine] (p : Producer) (action : Action) :
    Outcome p action (p.perform action) := by
  cases action with
  | observe observation => exact p.observe_outcome observation
  | next => exact p.next_outcome
  | take count =>
    simp only [perform]
    rcases p.take_cases count with ⟨failure, hcause, h⟩ | ⟨n, hn, items, h⟩
    · rw [h]
      exact .failed hcause
    · rw [h]
      exact .taken n hn
  | search wanted =>
    simp only [perform]
    rcases p.search_cases wanted with ⟨failure, hcause, h⟩ | ⟨n, hn, found, h⟩
    · rw [h]
      exact .failed hcause
    · rw [h]
      exact .taken n hn
  | collect container => exact p.collect_outcome container
  | collectBehind front => exact p.collectBehind_outcome front
  | assignFixed number => exact .failed id
  | assignOther => exact .taken 0 (Nat.zero_le _)
  | assignItems items => exact p.edit_outcome (.assignItems items) trivial
  | append item => exact p.edit_outcome (.append item) trivial
  | setItem place item => exact p.edit_outcome (.setItem place item) trivial
  | pop place => exact p.edit_outcome (.pop place) trivial
  | clear => exact p.edit_outcome .clear trivial

end Producer

end Fixtures
