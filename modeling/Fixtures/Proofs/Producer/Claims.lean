import Fixtures.Proofs.Producer.Lockstep

/-!
# Claims never change what is produced

Two producers that have all but their claims in common hand out the same items to the same clients,
through any run. The claim is only told to those who look at it, and only containers that make room
beforehand can do something else because of it: where there is not as much room as is claimed, they
take no item at all.
-/

namespace Fixtures

namespace Container

/-- Claims below this bound, 2 to the power of 54, are lengths. -/
def lengthBound : Nat := 0x40000000000000

/-- The machine has room for as many items as are claimed. A byte array does not ask for room. -/
def HasRoom [Machine] (container : Container) (claim : Nat) : Prop :=
  match container with
  | .list | .tuple => Machine.referenceSize * claim < Machine.memoryBound
  | .bytes => claim < Machine.memoryBound
  | .byteArray => True

instance [Machine] (container : Container) (claim : Nat) : Decidable (container.HasRoom claim) :=
  match container with
  | .list | .tuple | .bytes => inferInstanceAs (Decidable (_ < _))
  | .byteArray => inferInstanceAs (Decidable True)

/-- The machine has room for the items of a list and as many more as are claimed. The list does not
ask where both together would be no machine integer. -/
def HasRoomBehind [Machine] (length claim : Nat) : Prop :=
  Machine.integerBound ≤ length + claim ∨ Container.list.HasRoom (length + claim)

instance [Machine] (length claim : Nat) : Decidable (HasRoomBehind length claim) :=
  inferInstanceAs (Decidable (_ ∨ _))

/-- A container makes room alike for two claims: both are lengths, and there is room for both or for
neither. A byte array makes no room for any claim. -/
def RoomAlike [Machine] (container : Container) (claim other : Nat) : Prop :=
  match container with
  | .byteArray => True
  | container =>
    claim < lengthBound ∧ other < lengthBound ∧
      (container.HasRoom claim ↔ container.HasRoom other)

/-- A list makes room alike for two claims behind the items that it has. -/
def RoomAlikeBehind [Machine] (length claim other : Nat) : Prop :=
  claim < lengthBound ∧ other < lengthBound ∧
    (HasRoomBehind length claim ↔ HasRoomBehind length other)

end Container

namespace Producer

/-- The producer with another claim. -/
def withClaim (p : Producer) (claim : Nat) : Producer :=
  { p with claimed := claim }

@[simp] theorem remaining_withClaim (p : Producer) (claim : Nat) :
    (p.withClaim claim).remaining = p.remaining := rfl

@[simp] theorem position_withClaim (p : Producer) (claim : Nat) :
    (p.withClaim claim).position = p.position := rfl

@[simp] theorem items_withClaim (p : Producer) (claim : Nat) :
    (p.withClaim claim).items = p.items := rfl

@[simp] theorem cycle_withClaim (p : Producer) (claim : Nat) :
    (p.withClaim claim).cycle = p.cycle := rfl

/-- Two producers that have all but their claims in common. -/
structure SameButClaim (p q : Producer) : Prop where
  /-- They are of one kind. -/
  kind_eq : q.kind = p.kind
  /-- They produce as many items in all. -/
  limit_eq : q.limit = p.limit
  /-- They have produced as many items so far. -/
  position_eq : q.position = p.position
  /-- They have the same items. -/
  items_eq : q.items = p.items

/-- Only the claim has to be changed. -/
theorem SameButClaim.eq_withClaim {p q : Producer} (h : SameButClaim p q) :
    q = p.withClaim q.claimed := by
  obtain ⟨kind, limit, claimed, position, items⟩ := q
  obtain ⟨rfl, rfl, rfl, rfl⟩ := h
  rfl

/-- Changing the claim changes nothing else. -/
theorem sameButClaim_withClaim (p : Producer) (claim : Nat) : SameButClaim p (p.withClaim claim) :=
  ⟨rfl, rfl, rfl, rfl⟩

/-! ## What the claim has no part in -/

/-- The next item does not depend on the claim. -/
theorem next_withClaim (p : Producer) (claim : Nat) :
    (p.withClaim claim).next = p.next.map fun (item, q) => (item, q.withClaim claim) := by
  rcases Nat.eq_zero_or_pos p.remaining with hzero | hpos
  · rw [next_of_remaining_eq_zero hzero, next_of_remaining_eq_zero (by simpa using hzero)]
    rfl
  · rw [next_of_remaining_pos hpos, next_of_remaining_pos (by simpa using hpos), cycle_withClaim]
    cases p.cycle with
    | error failure => rfl
    | ok c => rfl

/-- Taking items does not depend on the claim. -/
theorem take_withClaim (p : Producer) (claim count : Nat) :
    (p.withClaim claim).take count = (p.take count).map (·.withClaim claim) id := by
  by_cases hzero : min count p.remaining = 0
  · simp only [take, remaining_withClaim, hzero, if_true]
    rfl
  · simp only [take, remaining_withClaim, cycle_withClaim, hzero, if_false]
    cases p.cycle with
    | error failure => rfl
    | ok c => rfl

/-- Taking all items that are left does not depend on the claim. -/
theorem drain_withClaim (p : Producer) (claim : Nat) :
    (p.withClaim claim).drain = p.drain.map (·.withClaim claim) id :=
  p.take_withClaim claim p.remaining

/-- A search does not depend on the claim. -/
theorem search_withClaim (p : Producer) (claim : Nat) (wanted : Value) :
    (p.withClaim claim).search wanted = (p.search wanted).map (·.withClaim claim) id := by
  by_cases hzero : p.remaining = 0
  · simp only [search, remaining_withClaim, hzero, if_true]
    rfl
  · simp only [search, remaining_withClaim, cycle_withClaim, position_withClaim, hzero, if_false]
    cases p.cycle with
    | error failure => rfl
    | ok c =>
      cases hfound : (c.round p.position p.remaining).findIdx? fun item => item.same wanted with
      | none => simp only [hfound]; rfl
      | some before => simp only [hfound]; rfl

/-- Taking items as bytes does not depend on the claim. -/
theorem drainBytes_withClaim (p : Producer) (claim : Nat) (container : Container) :
    (p.withClaim claim).drainBytes container =
      (p.drainBytes container).map (·.withClaim claim) id := by
  by_cases hzero : p.remaining = 0
  · simp only [drainBytes, remaining_withClaim, hzero, if_true]
    rfl
  · simp only [drainBytes, remaining_withClaim, cycle_withClaim, position_withClaim, hzero,
      if_false]
    cases p.cycle with
    | error failure => rfl
    | ok c =>
      cases hrefused : container.firstRefused? (c.round p.position p.remaining) with
      | none => simp only [hrefused]; rfl
      | some refused => simp only [hrefused]; rfl

/-- A copy makes the same claim. -/
theorem copy_withClaim (p : Producer) (claim : Nat) :
    (p.withClaim claim).copy = p.copy.map (·.withClaim claim) := by
  rw [copy_eq, copy_eq, items_withClaim]
  cases p.items.members? with
  | none => rfl
  | some xs => cases xs <;> rfl

/-! ## Making room for a claim -/

/-- A claim that is a length is a machine integer. -/
theorem holds_of_lt {claim : Nat} (h : claim < Container.lengthBound) : Machine.Holds claim := by
  unfold Container.lengthBound at h
  unfold Machine.Holds Machine.integerBound
  omega

/-- A claim that a list has room for is a machine integer. -/
theorem holds_of_hasRoom [Machine] {claim : Nat} (h : Container.list.HasRoom claim) :
    Machine.Holds claim := by
  have hbound := Machine.memoryBound_le
  unfold Container.HasRoom Machine.referenceSize at h
  unfold Machine.Holds
  omega

/-- A claim that is a machine integer is told. -/
theorem lengthHint_of_holds {p : Producer} (h : Machine.Holds p.claimed) :
    p.lengthHint = .ok p.claimed :=
  if_pos h

/-- Room is made for items if there is as much. -/
theorem mapError_reserve [Machine] (count : Nat) :
    (Machine.reserve count).mapError Failure.memory =
      if Container.list.HasRoom count then .ok () else .error (.memory .noRoom) := by
  unfold Machine.reserve
  by_cases hroom : Container.list.HasRoom count
  · rw [if_pos hroom, if_neg (Nat.not_le_of_lt hroom)]
    rfl
  · rw [if_neg hroom, if_pos (Nat.le_of_not_lt hroom)]
    rfl

/-- Room is made for as many items as are claimed if there is as much. -/
theorem reserve_lengthHint [Machine] {p : Producer} (h : Machine.Holds p.claimed) :
    (do (Machine.reserve (← p.lengthHint)).mapError Failure.memory) =
      if Container.list.HasRoom p.claimed then .ok () else .error (.memory .noRoom) := by
  simp only [lengthHint_of_holds h, bind, Except.bind, mapError_reserve]

/-- A container makes room for a claim that there is room for. -/
theorem reserve_of_hasRoom [Machine] {p : Producer} (h : Machine.Holds p.claimed)
    {container : Container} (hroom : container.HasRoom p.claimed) :
    container.reserve p = .ok () := by
  cases container with
  | list => exact (reserve_lengthHint h).trans (if_pos hroom)
  | tuple => exact (reserve_lengthHint h).trans (if_pos hroom)
  | bytes =>
    simp only [Container.reserve, lengthHint_of_holds h, bind, Except.bind,
      Machine.reserveBytes_of_lt hroom]
    rfl
  | byteArray => rfl

/-- A container refuses to make room for a claim that is a length if there is not as much. -/
theorem reserve_of_not_hasRoom [Machine] {p : Producer} (h : p.claimed < Container.lengthBound)
    {container : Container} (hroom : ¬ container.HasRoom p.claimed) :
    container.reserve p = .error (.memory .noRoom) := by
  cases container with
  | list => exact (reserve_lengthHint (holds_of_lt h)).trans (if_neg hroom)
  | tuple => exact (reserve_lengthHint (holds_of_lt h)).trans (if_neg hroom)
  | bytes =>
    have hshort : ¬ Machine.integerBound ≤ p.claimed + Machine.byteStringOverhead := by
      unfold Container.lengthBound at h
      unfold Machine.integerBound Machine.byteStringOverhead
      omega
    simp only [Container.reserve, lengthHint_of_holds (holds_of_lt h), bind, Except.bind,
      Machine.reserveBytes, if_neg hshort, if_pos (Nat.le_of_not_lt hroom)]
    rfl
  | byteArray => exact absurd trivial hroom

/-- A container makes room for a claim that is a length if there is as much. -/
theorem reserve_of_lt [Machine] {p : Producer} (h : p.claimed < Container.lengthBound)
    (container : Container) :
    container.reserve p =
      if container.HasRoom p.claimed then .ok () else .error (.memory .noRoom) := by
  split
  · exact reserve_of_hasRoom (holds_of_lt h) ‹_›
  · exact reserve_of_not_hasRoom h ‹_›

/-- A list makes room behind its items for a claim if there is as much. -/
theorem reserveBehind_of_holds [Machine] {p : Producer} (h : Machine.Holds p.claimed)
    (length : Nat) :
    Container.reserveBehind length p =
      if Container.HasRoomBehind length p.claimed then .ok () else .error (.memory .noRoom) := by
  have hholds : Machine.Holds (length + p.claimed) ↔
      ¬ Machine.integerBound ≤ length + p.claimed := by
    unfold Machine.Holds
    omega
  simp only [Container.reserveBehind, lengthHint_of_holds h, bind, Except.bind, mapError_reserve]
  by_cases hbound : Machine.integerBound ≤ length + p.claimed
  · simp [hholds, hbound, Container.HasRoomBehind]
  · simp [hholds, hbound, Container.HasRoomBehind]

/-- A container that makes room alike for two claims makes it or refuses it for both. -/
theorem reserve_withClaim [Machine] {p : Producer} {claim : Nat} {container : Container}
    (halike : container.RoomAlike p.claimed claim) :
    container.reserve (p.withClaim claim) = container.reserve p := by
  have hlengths (h : p.claimed < Container.lengthBound ∧ claim < Container.lengthBound ∧
      (container.HasRoom p.claimed ↔ container.HasRoom claim)) :
      container.reserve (p.withClaim claim) = container.reserve p := by
    obtain ⟨hp, hclaim, hroom⟩ := h
    have hother : (p.withClaim claim).claimed < Container.lengthBound := hclaim
    rw [reserve_of_lt hp, reserve_of_lt hother]
    exact ite_congr (propext hroom.symm) (fun _ => rfl) fun _ => rfl
  cases container with
  | byteArray => rfl
  | list => exact hlengths halike
  | tuple => exact hlengths halike
  | bytes => exact hlengths halike

/-- A list that makes room alike for two claims behind its items makes it or refuses it for both. -/
theorem reserveBehind_withClaim [Machine] {p : Producer} {claim length : Nat}
    (halike : Container.RoomAlikeBehind length p.claimed claim) :
    Container.reserveBehind length (p.withClaim claim) = Container.reserveBehind length p := by
  obtain ⟨hp, hclaim, hroom⟩ := halike
  have hother : (p.withClaim claim).claimed < Container.lengthBound := hclaim
  rw [reserveBehind_of_holds (holds_of_lt hp), reserveBehind_of_holds (holds_of_lt hother)]
  exact ite_congr (propext hroom.symm) (fun _ => rfl) fun _ => rfl

/-! ## Actions and steps -/

/-- The observations that show the claim. -/
def Observation.ShowsClaim : Observation → Prop
  | .hint | .lengthHint | .fixed .claimed | .state | .display => True
  | _ => False

/-- The actions that show the claim. -/
def Action.ShowsClaim : Action → Prop
  | .observe observation => observation.ShowsClaim
  | _ => False

/-- An action makes room alike for two claims, if it makes room at all. -/
def Action.RoomAlike [Machine] (claim other : Nat) : Action → Prop
  | .collect container => container.RoomAlike claim other
  | .collectBehind (.list front) => Container.RoomAlikeBehind front.length claim other
  | _ => True

/-- An observation that does not show the claim does not depend on it. -/
theorem observe_withClaim (p : Producer) (claim : Nat) {observation : Observation}
    (hhides : ¬ observation.ShowsClaim) :
    (p.withClaim claim).observe observation = p.observe observation := by
  cases observation with
  | fixed number =>
    cases number with
    | claimed => exact absurd trivial hhides
    | _ => rfl
  | hint => exact absurd trivial hhides
  | lengthHint => exact absurd trivial hhides
  | state => exact absurd trivial hhides
  | display => exact absurd trivial hhides
  | _ => rfl

/-- Gathering items comes to the same with two claims that room is made alike for. -/
theorem collect_withClaim [Machine] {p : Producer} {claim : Nat} {container : Container}
    (halike : container.RoomAlike p.claimed claim) :
    (p.withClaim claim).collect container =
      (p.collect container).map (·.withClaim claim) id := by
  unfold collect
  rw [reserve_withClaim halike, drain_withClaim, drainBytes_withClaim]
  cases container.reserve p with
  | error failure => rfl
  | ok => cases container <;> rfl

/-- Gathering items behind others comes to the same with two claims that room is made alike for. -/
theorem collectBehind_withClaim [Machine] {p : Producer} {claim : Nat} {front : Value}
    (halike : (Action.collectBehind front).RoomAlike p.claimed claim) :
    (p.withClaim claim).collectBehind front =
      (p.collectBehind front).map (·.withClaim claim) id := by
  cases front with
  | list front =>
    simp only [collectBehind, reserveBehind_withClaim halike, drain_withClaim]
    cases Container.reserveBehind front.length p <;> rfl
  | _ => rfl

/-- Editing the items does not depend on the claim. -/
theorem edit_withClaim [Machine] (p : Producer) (claim : Nat) (action : Action)
    (hedits : action.EditsItems) :
    (p.withClaim claim).perform action = (p.perform action).map (·.withClaim claim) id := by
  cases action with
  | assignItems items => rfl
  | append item =>
    simp only [perform, append, items_withClaim]
    split <;> rfl
  | setItem place item =>
    by_cases hlarge : p.items.members?.isSome ∧ ¬ Machine.Holds place
    · simp only [perform, setItem, items_withClaim, eq_true hlarge, if_true]
      rfl
    · simp only [perform, setItem, items_withClaim, hlarge, if_false]
      split
      · split <;> rfl
      · rfl
  | pop place =>
    simp only [perform, pop, items_withClaim]
    split
    · split
      · rfl
      · split
        · rfl
        · split <;> rfl
    · rfl
  | clear =>
    simp only [perform, clear, items_withClaim]
    split <;> rfl
  | _ => exact absurd hedits id

/-- An action that does not show the claim comes to the same with two claims that it makes room
alike for. -/
theorem perform_withClaim [Machine] {p : Producer} {claim : Nat} {action : Action}
    (hhides : ¬ action.ShowsClaim) (halike : action.RoomAlike p.claimed claim) :
    (p.withClaim claim).perform action = (p.perform action).map (·.withClaim claim) id := by
  cases action with
  | observe observation =>
    simp only [perform, p.observe_withClaim claim hhides]
    rfl
  | next =>
    simp only [perform, next_withClaim]
    cases p.next with
    | error failure => rfl
    | ok taken => rfl
  | take count =>
    simp only [perform, take_withClaim]
    rfl
  | search wanted =>
    simp only [perform, search_withClaim]
    rfl
  | collect container => exact collect_withClaim halike
  | collectBehind front => exact collectBehind_withClaim halike
  | assignFixed number => rfl
  | assignOther => rfl
  | assignItems items => exact p.edit_withClaim claim (.assignItems items) trivial
  | append item => exact p.edit_withClaim claim (.append item) trivial
  | setItem place item => exact p.edit_withClaim claim (.setItem place item) trivial
  | pop place => exact p.edit_withClaim claim (.pop place) trivial
  | clear => exact p.edit_withClaim claim .clear trivial

/-- The steps that show a claim, or compare claims. -/
def Request.ShowsClaim : Request → Prop
  | .act _ action => action.ShowsClaim
  | .equal _ _ | .differ _ _ => True
  | _ => False

/-- A step makes room alike for two claims, if it makes room at all: a producer of the items of
another one gathers them as a list. -/
def Request.RoomAlike [Machine] (claim other : Nat) : Request → Prop
  | .act _ action => action.RoomAlike claim other
  | .create _ _ _ _ (.producer _) => Container.list.RoomAlike claim other
  | _ => True

/-- Two producers that have all but their claims in common, and claims that are related if they
differ. -/
def SameUpTo (related : Nat → Nat → Prop) (p q : Producer) : Prop :=
  SameButClaim p q ∧ (q.claimed = p.claimed ∨ related p.claimed q.claimed)

/-- Every producer makes its own claim. -/
theorem sameUpTo_self (related : Nat → Nat → Prop) (p : Producer) : SameUpTo related p p :=
  ⟨⟨rfl, rfl, rfl, rfl⟩, .inl rfl⟩

/-- Producers with all but their claims in common are one, or have two related claims. -/
theorem SameUpTo.cases {related : Nat → Nat → Prop} {p q : Producer}
    (h : SameUpTo related p q) :
    q = p ∨ ∃ claim, q = p.withClaim claim ∧ related p.claimed claim := by
  obtain ⟨hsame, hclaimed | hrelated⟩ := h
  · left
    rw [hsame.eq_withClaim, hclaimed]
    rfl
  · exact Or.inr ⟨q.claimed, hsame.eq_withClaim, hrelated⟩

/-- What claims the same as a producer may claim what is related to that. -/
theorem sameUpTo_withClaim {related : Nat → Nat → Prop} {p r : Producer} {claim : Nat}
    (hrelated : related p.claimed claim) (hclaimed : r.claimed = p.claimed) :
    SameUpTo related r (r.withClaim claim) :=
  ⟨sameButClaim_withClaim r claim, .inr (by rwa [hclaimed])⟩

/-- No action changes the claim. -/
theorem claimed_perform [Machine] (p : Producer) (action : Action) :
    (p.perform action).1.claimed = p.claimed := by
  have houtcome := p.perform_outcome action
  rcases hperform : p.perform action with ⟨q, answer⟩
  rw [hperform] at houtcome
  cases houtcome with
  | failed => rfl
  | taken => rfl
  | edited => rfl
  | spoiled => rfl

/-- An action that does not show the claim, and makes room alike for related ones, does not tell
them apart. -/
theorem Action.respects_sameUpTo [Machine] {related : Nat → Nat → Prop} {action : Action}
    (hhides : ¬ action.ShowsClaim)
    (halike : ∀ claim other, related claim other → action.RoomAlike claim other) :
    action.Respects (SameUpTo related) := by
  intro p q hpq
  rcases hpq.cases with rfl | ⟨claim, rfl, hrelated⟩
  · exact ⟨rfl, sameUpTo_self related _⟩
  · rw [perform_withClaim hhides (halike _ _ hrelated)]
    exact ⟨rfl, sameUpTo_withClaim hrelated (p.claimed_perform action)⟩

/-- A copy claims what the producer claims. -/
theorem alike_copy_of_sameUpTo {related : Nat → Nat → Prop} {p q : Producer}
    (h : SameUpTo related p q) : Alike (SameUpTo related) p.copy q.copy := by
  rcases h.cases with rfl | ⟨claim, rfl, hrelated⟩
  · exact alike_self (sameUpTo_self related) q.copy
  · rw [copy_withClaim]
    rcases p.copy_cases with ⟨failure, _, hcopy⟩ | ⟨xs, _, _, hcopy⟩
    · rw [hcopy]
      exact rfl
    · rw [hcopy]
      exact sameUpTo_withClaim hrelated rfl

/-- A step that does not show claims, and makes room alike for related ones, does not tell them
apart. -/
theorem Request.respects_sameUpTo [Machine] {related : Nat → Nat → Prop} {request : Request}
    (hhides : ¬ request.ShowsClaim)
    (halike : ∀ claim other, related claim other → request.RoomAlike claim other) :
    request.Respects (SameUpTo related) := by
  cases request with
  | create name kind limit claimed source =>
    cases source with
    | value v => trivial
    | object kindName => trivial
    | producer source => exact Action.respects_sameUpTo id halike
  | copy name target => exact fun p q hpq => alike_copy_of_sameUpTo hpq
  | equal name other => exact absurd trivial hhides
  | differ name other => exact absurd trivial hhides
  | identical name other => trivial
  | act name action => exact Action.respects_sameUpTo hhides halike

/-- **Claims never change what is produced.** Of two producers that have all but their claims in
common, whatever they claim, let one or the other be held under a name, and let a run show no
claims. Then all answers are the same, and in the end the producers of every name have all but
their claims in common. Only where a step makes room for what is claimed, which a list, a tuple, a
byte string and a new producer do, there has to be room for both claims or for neither. -/
theorem Session.run_of_sameButClaim [Machine] (session : Session) (name : String) {p q : Producer}
    (hsame : SameButClaim p q) {requests : List Request}
    (hhides : ∀ request ∈ requests, ¬ request.ShowsClaim)
    (halike : ∀ request ∈ requests, request.RoomAlike p.claimed q.claimed) :
    let first := Session.run (session.insert name p) requests
    let second := Session.run (session.insert name q) requests
    first.2 = second.2 ∧
      ∀ other, Option.Rel SameButClaim (first.1.find? other) (second.1.find? other) := by
  intro first second
  -- Claims are related if every step of this run makes room alike for them.
  let related (claim other : Nat) : Prop := ∀ request ∈ requests, request.RoomAlike claim other
  have hself : Session.Related (SameUpTo related) (fun _ => True) session session :=
    session.related_self (sameUpTo_self related)
  have hrespects : ∀ request ∈ requests, request.Respects (SameUpTo related) :=
    fun request h => Request.respects_sameUpTo (hhides request h) fun _ _ hrelated =>
      hrelated request h
  obtain ⟨hanswers, hrelated⟩ := (hself.insert ⟨hsame, .inr halike⟩ name).run
    (sameUpTo_self related) (fun _ _ _ _ => trivial) hrespects
  exact ⟨hanswers, fun other => hrelated.mono (fun _ _ h => h.1) other trivial⟩

/-- A producer that claims a thousand items is searched, copied, gathered into a list and made into
another producer like one that claims none. -/
theorem Session.run_of_sameButClaim_thousand :
    let p : Producer := ⟨"Source", 7, 0, 1, .list [.int 1, .int 2]⟩
    let requests : List Request :=
      [.act "source" (.search (.int 1)), .copy "source" "copy", .act "copy" .next,
        .create "fed" "Source" (.plain (.int 3)) (.plain (.int 9)) (.producer "copy"),
        .act "fed" (.collect .list), .act "source" (.collect .bytes)]
    let first := Session.run (Registry.empty.insert "source" p) requests
    let second := Session.run (Registry.empty.insert "source" (p.withClaim 1000)) requests
    (∀ request ∈ requests, ¬ request.ShowsClaim) ∧
      (∀ request ∈ requests, request.RoomAlike 0 1000) ∧
      first.2 = second.2 ∧ Option.Rel SameButClaim (first.1.find? "fed") (second.1.find? "fed") := by
  intro p requests first second
  have hhides : ∀ request ∈ requests, ¬ request.ShowsClaim := by
    simp [requests, Request.ShowsClaim, Action.ShowsClaim]
  have halike : ∀ request ∈ requests, request.RoomAlike 0 1000 := by
    simp [requests, Request.RoomAlike, Action.RoomAlike, Container.RoomAlike, Container.HasRoom,
      Container.lengthBound, Machine.referenceSize, Machine.memoryBound]
  obtain ⟨hanswers, hproducers⟩ := Session.run_of_sameButClaim .empty "source"
    (sameButClaim_withClaim p 1000) hhides halike
  exact ⟨hhides, halike, hanswers, hproducers "fed"⟩

/-- A list asks for as much room as is claimed. Of two producers that have all but their claims in
common, the one that claims 2 to the power of 52 items fills no list. -/
theorem Session.run_of_claim_beyond_room :
    let p : Producer := ⟨"Source", 3, 0, 0, .list [.text "x", .text "y"]⟩
    let q := p.withClaim 0x10000000000000
    let requests : List Request := [.act "source" (.collect .list)]
    let first := Session.run (Registry.empty.insert "source" p) requests
    let second := Session.run (Registry.empty.insert "source" q) requests
    SameButClaim p q ∧ p.claimed < Container.lengthBound ∧ q.claimed < Container.lengthBound ∧
      (∀ request ∈ requests, ¬ request.ShowsClaim) ∧
      first.2 = [.ok (.list [.text "x", .text "y", .text "x"])] ∧
      second.2 = [.error (.memory .noRoom)] ∧ first.2 ≠ second.2 := by
  refine ⟨sameButClaim_withClaim _ _, by decide, by decide, ?_, rfl, rfl, ?_⟩
  · simp [Request.ShowsClaim, Action.ShowsClaim]
  · intro h
    cases h

end Producer

end Fixtures
