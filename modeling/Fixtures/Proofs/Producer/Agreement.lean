import Fixtures.Proofs.Producer.Claims
import Fixtures.Proofs.Producer.Invariant
import Fixtures.Proofs.Producer.Isolation
import Fixtures.Proofs.Producer.Window
import Mathlib.Data.List.Basic

/-!
# Consumers agree

A list, a tuple, an extended list, a byte string and a byte array are gathered by different loops,
which make room in different ways and look at the items in different ways. Here it is said once
what a container holds that was handed some items, and every consumer is shown to hold the items to
come. A consumer that is refused the room it asks for has not taken any of them.
-/

namespace Fixtures

/-- The byte that an item is, if it is one. -/
def Value.toByte (v : Value) : UInt8 :=
  UInt8.ofNat (v.asInteger?.getD 0).toNat

/-- A byte is the integer that the item counts as. -/
theorem Value.asInteger?_eq_toByte {v : Value} (h : v.IsByte) :
    v.asInteger? = some (v.toByte.toNat : Int) := by
  obtain ⟨n, hn, hlow, hhigh⟩ := h
  have hsmall : n.toNat % 256 = n.toNat := Nat.mod_eq_of_lt (by omega)
  simp only [toByte, hn, Option.getD_some, UInt8.toNat_ofNat', Nat.reducePow, hsmall]
  rw [Int.toNat_of_nonneg hlow]

/-- A container takes a byte for what it is. -/
theorem Container.byteOf_of_isByte (container : Container) {v : Value} (h : v.IsByte) :
    container.byteOf v = .ok v.toByte := by
  obtain ⟨n, hn, hrange⟩ := h
  simp [byteOf, Value.toByte, hn, hrange]

/-- No item is refused where all of them are bytes. -/
theorem Container.firstRefused?_of_isByte (container : Container) {items : List Value}
    (h : ∀ item ∈ items, item.IsByte) : container.firstRefused? items = none := by
  unfold firstRefused?
  rw [List.findSome?_eq_none_iff]
  rintro ⟨item, place⟩ hitem
  simp only [container.byteOf_of_isByte (h item (List.fst_mem_of_mem_zipIdx hitem))]

/-- The items are the numbers of the bytes. -/
def Value.AreBytes (items : List Value) (bytes : List UInt8) : Prop :=
  items.map Value.asInteger? = bytes.map fun byte => some (byte.toNat : Int)

/-- Items that are bytes are the numbers of these bytes. -/
theorem Value.areBytes_toByte {items : List Value} (h : ∀ item ∈ items, item.IsByte) :
    AreBytes items (items.map toByte) := by
  unfold AreBytes
  rw [List.map_map]
  exact List.map_congr_left fun item hitem => asInteger?_eq_toByte (h item hitem)

/-- Only bytes are the numbers of bytes. -/
theorem Value.AreBytes.isByte {items : List Value} {bytes : List UInt8} (h : AreBytes items bytes) :
    ∀ item ∈ items, item.IsByte := by
  intro item hitem
  have hnumber : item.asInteger? ∈ bytes.map fun byte => some (byte.toNat : Int) := by
    rw [← h]
    exact List.mem_map_of_mem hitem
  obtain ⟨byte, _, hbyte⟩ := List.mem_map.mp hnumber
  have hlt := byte.toNat_lt
  exact ⟨byte.toNat, hbyte.symm, by omega, by omega⟩

/-- The bytes that items are the numbers of are theirs. -/
theorem Value.AreBytes.map_toByte {items : List Value} {bytes : List UInt8}
    (h : AreBytes items bytes) : items.map toByte = bytes := by
  have hread := congrArg (List.map fun number => UInt8.ofNat (number.getD 0).toNat) h
  rw [List.map_map, List.map_map] at hread
  exact hread.trans (by simp [Function.comp_def])

namespace Producer

/-- What a consumer answers that was handed some items and nothing else. -/
inductive Gathers (coming : List Value) : Action → Value → Prop where
  /-- A list holds the items. -/
  | list : Gathers coming (.collect .list) (.list coming)
  /-- A tuple holds the items. -/
  | tuple : Gathers coming (.collect .tuple) (.tuple coming)
  /-- A list that is extended holds the items behind those it had. -/
  | behind (front : List Value) :
    Gathers coming (.collectBehind (.list front)) (.list (front ++ coming))
  /-- A byte container holds the bytes that the items are the numbers of. -/
  | bytes {container : Container} {bytes : List UInt8} (hholds : container.HoldsBytes)
    (hbytes : Value.AreBytes coming bytes) : Gathers coming (.collect container) (.bytes bytes)

/-- The machine has room for what an action asks for, if it asks. -/
def Action.HasRoom [Machine] (claim : Nat) : Action → Prop
  | .collect container => container.HasRoom claim
  | .collectBehind (.list front) => Container.HasRoomBehind front.length claim
  | _ => True

/-- The actions that ask how many items are claimed before they take one. -/
def Action.AsksClaim : Action → Prop
  | .collect .byteArray => False
  | .collect _ => True
  | .collectBehind (.list _) => True
  | _ => False

variable {p : Producer} {xs : List Value} {hpos : 0 < xs.length}

/-- Bytes to come are taken as what they are. -/
theorem drainBytes_of_members (hmembers : p.items.members? = some xs) {bytes : List UInt8}
    (hbytes : Value.AreBytes (membersFrom xs hpos p.position p.remaining) bytes)
    (container : Container) : p.drainBytes container = (p.advance p.remaining, .ok bytes) := by
  obtain ⟨c, hcycle, hitem⟩ := exists_cycle hmembers hpos
  have hstretch := stretch_eq_membersFrom hitem p.position p.remaining
  have hall : ∀ item ∈ c.stretch p.position p.remaining, item.IsByte := by
    rw [hstretch]
    exact hbytes.isByte
  have htaken : (c.stretch p.position p.remaining).filterMap
      (fun item => (container.byteOf item).toOption) = bytes := by
    rw [← hbytes.map_toByte, ← hstretch, List.filterMap_eq_map_iff_forall_eq_some]
    intro item hmem
    rw [container.byteOf_of_isByte (hall item hmem), Except.toOption]
  unfold drainBytes
  by_cases hzero : p.remaining = 0
  · have hnone : bytes = [] := by
      rw [← htaken, hzero]
      rfl
    simp [hzero, hnone]
  · have hround : ∀ item ∈ c.round p.position p.remaining, item.IsByte := by
      intro item hmem
      obtain ⟨j, hj, rfl⟩ := List.mem_map.mp hmem
      refine hall _ (List.mem_map.mpr ⟨j, ?_, rfl⟩)
      rw [List.mem_range] at hj ⊢
      omega
    simp [hzero, hcycle, container.firstRefused?_of_isByte hround, htaken]

/-- A consumer that is given the room it asks for holds the items to come, and none is left. -/
theorem perform_of_gathers [Machine] (hmembers : p.items.members? = some xs)
    (hholds : Machine.Holds p.claimed) {consumer : Action} {answer : Value}
    (hgathers : Gathers (membersFrom xs hpos p.position p.remaining) consumer answer)
    (hroom : consumer.HasRoom p.claimed) :
    p.perform consumer = (p.advance p.remaining, .ok answer) := by
  have hdrain := drain_of_members hmembers hpos
  cases hgathers with
  | list =>
    have hreserve : Container.list.reserve p = .ok () := reserve_of_hasRoom hholds hroom
    simp only [perform, collect, hreserve, hdrain]
    rfl
  | tuple =>
    have hreserve : Container.tuple.reserve p = .ok () := reserve_of_hasRoom hholds hroom
    simp only [perform, collect, hreserve, hdrain]
    rfl
  | behind front =>
    have hreserve := (reserveBehind_of_holds hholds front.length).trans (if_pos hroom)
    simp only [perform, collectBehind, hreserve, hdrain]
    rfl
  | @bytes container bytes hholdsBytes hbytes =>
    have hreserve : container.reserve p = .ok () := reserve_of_hasRoom hholds hroom
    have hdrainBytes := drainBytes_of_members hmembers hbytes container
    simp only [perform, collect, hreserve, hdrainBytes]
    rcases hholdsBytes with rfl | rfl
    · rfl
    · rfl

/-! ## Consumers that are refused -/

/-- A consumer that there is no room for takes no item. -/
theorem perform_of_no_room [Machine] (hlength : p.claimed < Container.lengthBound) {action : Action}
    (hnoRoom : ¬ action.HasRoom p.claimed) :
    p.perform action = (p, .error (.memory .noRoom)) := by
  cases action with
  | collect container =>
    have hreserve := reserve_of_not_hasRoom hlength hnoRoom
    simp only [perform, collect, hreserve]
  | collectBehind front =>
    cases front with
    | list front =>
      have hreserve := (reserveBehind_of_holds (holds_of_lt hlength) front.length).trans
        (if_neg hnoRoom)
      simp only [perform, collectBehind, hreserve]
    | _ => exact absurd trivial hnoRoom
  | _ => exact absurd trivial hnoRoom

/-- A claim from this bound on is no machine integer. -/
theorem lengthHint_of_integerBound_le (h : Machine.integerBound ≤ p.claimed) :
    p.lengthHint = .error .notMachineInteger := by
  apply if_neg
  unfold Machine.Holds
  omega

/-- A consumer that asks for a claim that is no machine integer takes no item. -/
theorem perform_of_integerBound_le [Machine] (h : Machine.integerBound ≤ p.claimed)
    {action : Action} (hasks : action.AsksClaim) :
    p.perform action = (p, .error .notMachineInteger) := by
  have hhint := lengthHint_of_integerBound_le h
  cases action with
  | collect container =>
    have hreserve : container.reserve p = .error .notMachineInteger := by
      cases container with
      | byteArray => exact hasks.elim
      | _ => simp only [Container.reserve, hhint, bind, Except.bind]
    simp only [perform, collect, hreserve]
  | collectBehind front =>
    cases front with
    | list front =>
      have hreserve : Container.reserveBehind front.length p = .error .notMachineInteger := by
        simp only [Container.reserveBehind, hhint, bind, Except.bind]
      simp only [perform, collectBehind, hreserve]
    | _ => exact hasks.elim
  | _ => exact hasks.elim

/-- A list or a tuple takes no item for a claim that is a machine integer and cannot be a length. -/
theorem perform_of_references [Machine] (hlow : 0x1000000000000000 ≤ p.claimed)
    (hhigh : p.claimed < Machine.integerBound) {container : Container}
    (hrefers : container = .list ∨ container = .tuple) :
    p.perform (.collect container) = (p, .error (.memory .noRoom)) := by
  have hholds : Machine.Holds p.claimed := by
    unfold Machine.Holds
    omega
  have hnoRoom : ¬ Container.list.HasRoom p.claimed := by
    have hbound := Machine.memoryBound_le
    unfold Machine.integerBound at hbound
    unfold Container.HasRoom Machine.referenceSize
    omega
  have hreserve : container.reserve p = .error (.memory .noRoom) := by
    rcases hrefers with rfl | rfl
    · exact (reserve_lengthHint hholds).trans (if_neg hnoRoom)
    · exact (reserve_lengthHint hholds).trans (if_neg hnoRoom)
  simp only [perform, collect, hreserve]

/-! ## Copies and their consumers -/

namespace Session

variable {session : Session} {name : String}

/-- Actions that a producer refuses change nothing. -/
theorem run_of_refused [Machine] (hfind : session.find? name = some p) {refused : List Action}
    {failure : Failure} (h : ∀ action ∈ refused, p.perform action = (p, .error failure)) :
    session.run (refused.map (.act name)) = (session, refused.map fun _ => .error failure) := by
  induction refused with
  | nil => rfl
  | cons action rest ih =>
    have hfirst : session.perform (.act name action) = (session, .error failure) := by
      rw [perform_act hfind, h action List.mem_cons_self, Registry.insert_of_find? hfind]
    simp only [List.map_cons, Session.run, hfirst,
      ih fun other hother => h other (List.mem_cons_of_mem _ hother)]

/-- Steps that each put one producer under a name of their own do so in turn, if each of them does
it wherever the session holds under other names, and under its own, what it held at first. -/
theorem run_of_inserts [Machine] {α : Type} {steps : List α} {target : α → String}
    {request : α → Request} {answer : α → Value} {q : Producer} (hnodup : (steps.map target).Nodup)
    (hstep : ∀ step ∈ steps, ∀ held : Session,
      (∀ other ∉ steps.map target, held.find? other = session.find? other) →
      held.find? (target step) = session.find? (target step) →
      held.perform (request step) = (held.insert (target step) q, .ok (answer step))) :
    let run := session.run (steps.map request)
    run.2 = steps.map (fun step => .ok (answer step)) ∧
      (∀ step ∈ steps, run.1.find? (target step) = some q) ∧
      ∀ other ∉ steps.map target, run.1.find? other = session.find? other := by
  induction steps generalizing session with
  | nil => exact ⟨rfl, by simp, fun _ _ => rfl⟩
  | cons first rest ih =>
    simp only [List.map_cons, List.nodup_cons] at hnodup
    simp only [List.map_cons, List.mem_cons, not_or] at hstep ⊢
    have hfirst : session.perform (request first) =
        (session.insert (target first) q, .ok (answer first)) :=
      hstep first (.inl rfl) session (fun _ _ => rfl) rfl
    have hrest : ∀ step ∈ rest, ∀ held : Session,
        (∀ other ∉ rest.map target,
          held.find? other = (session.insert (target first) q).find? other) →
        held.find? (target step) = (session.insert (target first) q).find? (target step) →
        held.perform (request step) = (held.insert (target step) q, .ok (answer step)) := by
      intro step hmem held hothers hown
      have hne : target step ≠ target first := by
        intro heq
        exact hnodup.1 (List.mem_map.mpr ⟨step, hmem, heq⟩)
      apply hstep step (.inr hmem) held
      · rintro other ⟨hother, hmissing⟩
        rw [hothers other hmissing, Registry.find?_insert_of_ne session hother]
      · rw [hown, Registry.find?_insert_of_ne session hne]
    obtain ⟨hanswers, hplaced, hothers⟩ := ih hnodup.2 hrest
    simp only [Session.run, hfirst]
    refine ⟨congrArg _ hanswers, ?_, ?_⟩
    · rintro step (rfl | hmem)
      · rw [hothers _ hnodup.1]
        exact Registry.find?_insert_self session _ q
      · exact hplaced step hmem
    · rintro other ⟨hother, hmissing⟩
      rw [hothers other hmissing, Registry.find?_insert_of_ne session hother]

/-- A copy that is made for a consumer, and what the consumer is to answer. -/
structure Service where
  /-- The name of the copy. -/
  twin : String
  /-- What is done with the copy. -/
  consumer : Action
  /-- The answer. -/
  answer : Value

/-- The step that makes the copy. -/
def Service.copy (name : String) (service : Service) : Request :=
  .copy name service.twin

/-- The step that hands the copy to its consumer. -/
def Service.act (service : Service) : Request :=
  .act service.twin service.consumer

/-- Copies are made one after another, all of the same producer. -/
theorem run_copies [Machine] {x : Value} {xs : List Value} (hfind : session.find? name = some p)
    (hmembers : p.items.members? = some (x :: xs)) {services : List Service}
    (hnodup : (name :: services.map Service.twin).Nodup) :
    let run := session.run (services.map (Service.copy name))
    run.2 = services.map (fun _ => .ok .null) ∧
      (∀ service ∈ services, run.1.find? service.twin = some (p.withItems (.list (x :: xs)))) ∧
      ∀ other ∉ services.map Service.twin, run.1.find? other = session.find? other := by
  rw [List.nodup_cons] at hnodup
  apply run_of_inserts hnodup.2
  intro service _ held hothers _
  exact perform_copy_of_members ((hothers name hnodup.1).trans hfind) hmembers service.twin

/-- Copies of different names are handed to their consumers one after another. -/
theorem run_acts [Machine] {q r : Producer} {services : List Service}
    (hnodup : (services.map Service.twin).Nodup)
    (hheld : ∀ service ∈ services, session.find? service.twin = some q)
    (hserved : ∀ service ∈ services, q.perform service.consumer = (r, .ok service.answer)) :
    let run := session.run (services.map Service.act)
    run.2 = services.map (fun service => .ok service.answer) ∧
      (∀ service ∈ services, run.1.find? service.twin = some r) ∧
      ∀ other ∉ services.map Service.twin, run.1.find? other = session.find? other := by
  apply run_of_inserts hnodup
  intro service hservice held _ hown
  rw [Service.act, perform_act (hown.trans (hheld service hservice)), hserved service hservice]

/-- Copies are made and then handed to their consumers, all of which have their answers. -/
structure Serves [Machine] (session : Session) (name : String)
    (services : List Service) : Prop where
  /-- The copies are made, and the consumers answer. -/
  answers : (session.run (services.map (Service.copy name) ++ services.map Service.act)).2 =
    services.map (fun _ => .ok .null) ++ services.map fun service => .ok service.answer
  /-- Nothing is left of a copy. -/
  exhausted : ∀ service ∈ services, ∃ q,
    (session.run (services.map (Service.copy name) ++ services.map Service.act)).1.find?
      service.twin = some q ∧ q.position = q.limit
  /-- The other producers are as they were. -/
  untouched : ∀ other ∉ services.map Service.twin,
    (session.run (services.map (Service.copy name) ++ services.map Service.act)).1.find? other =
      session.find? other

/-- Consumers that are each given the room they ask for are served by copies. -/
theorem serves_of_gathers [Machine] (hfind : session.find? name = some p)
    (hmembers : p.items.members? = some xs) (hwithin : p.position ≤ p.limit)
    (hlength : p.claimed < Container.lengthBound) {services : List Service}
    (hnodup : (name :: services.map Service.twin).Nodup)
    (hgathers : ∀ service ∈ services,
      Gathers (membersFrom xs hpos p.position p.remaining) service.consumer service.answer ∧
        service.consumer.HasRoom p.claimed) : session.Serves name services := by
  obtain ⟨x, rest, rfl⟩ := List.exists_cons_of_length_pos hpos
  let q := p.withItems (.list (x :: rest))
  have hserved : ∀ service ∈ services,
      q.perform service.consumer = (q.advance q.remaining, .ok service.answer) := by
    intro service hservice
    obtain ⟨hanswer, hroom⟩ := hgathers service hservice
    exact perform_of_gathers (p := q) rfl (holds_of_lt hlength) hanswer hroom
  obtain ⟨hcopied, hheld, hkept⟩ := run_copies hfind hmembers hnodup
  obtain ⟨hanswers, hdone, hothers⟩ := run_acts hnodup.of_cons hheld hserved
  constructor
  · rw [Session.run_append, hcopied, hanswers]
  · intro service hservice
    rw [Session.run_append]
    refine ⟨_, hdone service hservice, ?_⟩
    rw [advance_remaining (p := q) hwithin]
  · intro other hother
    rw [Session.run_append]
    exact (hothers other hother).trans (hkept other hother)

/-! ## What is left after a refusal -/

/-- Clients that take items one by one, in a number or as a byte array are handed all of them. -/
structure Delivers [Machine] (session : Session) (name : String) (coming : List Value) : Prop where
  /-- One by one. -/
  next : (session.run (List.replicate coming.length (.act name .next))).2 = coming.map .ok
  /-- In a number. -/
  take : (session.perform (.act name (.take coming.length))).2 = .ok (.list coming)
  /-- As a byte array, if they are bytes. -/
  byteArray : ∀ bytes, Value.AreBytes coming bytes →
    (session.perform (.act name (.collect .byteArray))).2 = .ok (.bytes bytes)

/-- Actions that are refused cost none of the items. -/
structure CostNothing [Machine] (session : Session) (name : String) (refused : List Action)
    (failure : Failure) (coming : List Value) : Prop where
  /-- Every action fails, and nothing has happened. -/
  run_eq : session.run (refused.map (.act name)) =
    (session, refused.map fun _ => .error failure)
  /-- All items are still to be had. -/
  delivers : (session.run (refused.map (.act name))).1.Delivers name coming

/-- The items to come are handed out whatever is claimed. -/
theorem delivers_of_members [Machine] (hfind : session.find? name = some p)
    (hmembers : p.items.members? = some xs) :
    session.Delivers name (membersFrom xs hpos p.position p.remaining) where
  next := by
    rw [length_membersFrom]
    exact run_next hfind hmembers hpos (Nat.le_refl _)
  take := by
    rw [perform_act hfind, length_membersFrom]
    simp only [Producer.perform, take_of_members hmembers hpos, Nat.min_self]
    rfl
  byteArray := by
    intro bytes hbytes
    rw [perform_act hfind]
    simp only [Producer.perform, collect, Container.reserve,
      drainBytes_of_members hmembers hbytes]
    rfl

/-- **Consumers agree, and a claim that cannot be honoured costs nothing.** Let a producer have
members to hand out. If its claim is a length, consumers of copies of it that there is room for hold
exactly the items to come, those for bytes where the items are bytes; the copies are exhausted and
nothing else has changed. Consumers that there is no room for, or that ask for a claim that is no
machine integer or cannot be a length, are refused, and then all items are still to be had. -/
theorem consumers_agree [Machine] (hfind : session.find? name = some p)
    (hmembers : p.items.members? = some xs) (hpos : 0 < xs.length)
    (hwithin : p.position ≤ p.limit) :
    let coming := membersFrom xs hpos p.position p.remaining
    coming.length = p.remaining ∧
      ((∀ item ∈ coming, item.IsByte) → ∃ bytes, Value.AreBytes coming bytes) ∧
      (p.claimed < Container.lengthBound →
        (∀ services : List Service, (name :: services.map Service.twin).Nodup →
          (∀ service ∈ services, Gathers coming service.consumer service.answer ∧
            service.consumer.HasRoom p.claimed) → session.Serves name services) ∧
        ∀ refused : List Action, (∀ action ∈ refused, ¬ action.HasRoom p.claimed) →
          session.CostNothing name refused (.memory .noRoom) coming) ∧
      (Machine.integerBound ≤ p.claimed → ∀ refused : List Action,
        (∀ action ∈ refused, action.AsksClaim) →
          session.CostNothing name refused .notMachineInteger coming) ∧
      (0x1000000000000000 ≤ p.claimed → p.claimed < Machine.integerBound →
        ∀ refused : List Action,
          (∀ action ∈ refused, action = .collect .list ∨ action = .collect .tuple) →
          session.CostNothing name refused (.memory .noRoom) coming) := by
  intro coming
  have hdelivers : session.Delivers name coming := delivers_of_members hfind hmembers
  have hcost {refused : List Action} {failure : Failure}
      (h : ∀ action ∈ refused, p.perform action = (p, .error failure)) :
      session.CostNothing name refused failure coming := by
    have hrun := run_of_refused hfind h
    exact ⟨hrun, by rwa [hrun]⟩
  refine ⟨length_membersFrom _ _, fun hbytes => ⟨_, Value.areBytes_toByte hbytes⟩, ?_, ?_, ?_⟩
  · intro hlength
    constructor
    · intro services hnodup hgathers
      exact serves_of_gathers hfind hmembers hwithin hlength hnodup hgathers
    · intro refused hnoRoom
      exact hcost fun action haction => perform_of_no_room hlength (hnoRoom action haction)
  · intro hlarge refused hasks
    exact hcost fun action haction => perform_of_integerBound_le hlarge (hasks action haction)
  · intro hlow hhigh refused hrefers
    apply hcost
    intro action haction
    rcases hrefers action haction with rfl | rfl
    · exact perform_of_references hlow hhigh (.inl rfl)
    · exact perform_of_references hlow hhigh (.inr rfl)

/-- A list, a tuple, an extended list, a byte string and a byte array hold the four items to come of
a producer that claims nine. -/
theorem consumers_agree_of_five :
    let p : Producer := ⟨"Source", 5, 9, 1, .list [.int 7, .bool true]⟩
    let session : Session := ⟨[("source", p)]⟩
    let coming : List Value := [.bool true, .int 7, .bool true, .int 7]
    let services : List Service :=
      [⟨"first", .collect .list, .list coming⟩, ⟨"second", .collect .tuple, .tuple coming⟩,
        ⟨"third", .collectBehind (.list []), .list coming⟩,
        ⟨"fourth", .collect .bytes, .bytes [1, 7, 1, 7]⟩,
        ⟨"fifth", .collect .byteArray, .bytes [1, 7, 1, 7]⟩]
    session.find? "source" = some p ∧ session.Serves "source" services := by
  intro p session coming services
  have hfind : session.find? "source" = some p := rfl
  have hpos : 0 < [Value.int 7, Value.bool true].length := by decide
  obtain ⟨_, _, hserves, _, _⟩ := consumers_agree hfind rfl hpos (by decide)
  refine ⟨hfind, (hserves (by decide)).1 services (by decide) ?_⟩
  have hcoming : membersFrom [.int 7, .bool true] hpos p.position p.remaining = coming := by
    simp [p, coming, remaining, membersFrom, memberAt, List.range_succ]
  have hbytes : Value.AreBytes coming [1, 7, 1, 7] := rfl
  have hroom (container : Container) : container.HasRoom 9 := by cases container <;> decide
  intro service hservice
  simp only [services, List.mem_cons, List.not_mem_nil, or_false] at hservice
  rw [hcoming]
  rcases hservice with rfl | rfl | rfl | rfl | rfl
  · exact ⟨.list, hroom .list⟩
  · exact ⟨.tuple, hroom .tuple⟩
  · exact ⟨.behind [], .inr (hroom .list)⟩
  · exact ⟨.bytes (.inl rfl) hbytes, hroom .bytes⟩
  · exact ⟨.bytes (.inr rfl) hbytes, hroom .byteArray⟩

/-- A list asks for as much room as is claimed. A copy of a producer that claims 2 to the power of
52 items fills no list with the three items to come. -/
theorem not_serves_of_claim_beyond_room :
    let p : Producer := ⟨"Source", 3, 0x10000000000000, 0, .list [.text "x", .text "y"]⟩
    let session : Session := ⟨[("source", p)]⟩
    let coming : List Value := [.text "x", .text "y", .text "x"]
    p.claimed < Container.lengthBound ∧
      membersFrom [.text "x", .text "y"] (by decide) p.position p.remaining = coming ∧
      Gathers coming (.collect .list) (.list coming) ∧
      (session.run [.copy "source" "copy", .act "copy" (.collect .list)]).2 =
        [.ok .null, .error (.memory .noRoom)] ∧
      ¬ session.Serves "source" [⟨"copy", .collect .list, .list coming⟩] := by
  intro p session coming
  have hanswers : (session.run [.copy "source" "copy", .act "copy" (.collect .list)]).2 =
      [.ok .null, .error (.memory .noRoom)] := rfl
  have hcoming :
      membersFrom [.text "x", .text "y"] (by decide) p.position p.remaining = coming := by
    simp [p, coming, remaining, membersFrom, memberAt, List.range_succ]
  refine ⟨by decide, hcoming, .list, hanswers, ?_⟩
  intro hserves
  have hserved := hanswers.symm.trans hserves.answers
  cases hserved

end Session

end Producer

end Fixtures
