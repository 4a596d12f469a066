import Fixtures.Proofs.Producer.Itemwise
import Fixtures.Proofs.Producer.Transition
import Fixtures.Proofs.Producer.Window

/-!
# The stream of a producer

Whatever clients take the items of a producer, in whatever order, together they are handed the
items of one stream: the members of its list over and over, from the first item on and up to the
limit. A run is written down item by item for that, with each item under the name of its producer.
-/

namespace Fixtures.Producer

/-- Calls for items until a reason to stop give the stretch of the cycle that they pass over. -/
theorem pullUntil_stretch {σ : Type} {stops : Value → Option σ} {p : Producer} {c : Cycle}
    (hcycle : p.cycle = .ok c) :
    ∃ n ≤ p.remaining, (p.pullUntil stops).rest = p.advance n ∧
      (p.pullUntil stops).items = c.stretch p.position n := by
  induction hremaining : p.remaining generalizing p with
  | zero =>
    rw [pullUntil_of_error (next_of_remaining_eq_zero hremaining)]
    exact ⟨0, Nat.le_refl _, rfl, rfl⟩
  | succ remaining ih =>
    rw [pullUntil_of_ok (next_of_cycle hcycle (by omega))]
    cases stops (c.item p.position) with
    | some reason => exact ⟨1, by omega, rfl, by rw [Cycle.stretch_succ]; rfl⟩
    | none =>
      obtain ⟨n, hn, hrest, hitems⟩ := ih (p := p.advance 1) hcycle (by
        rw [remaining_advance]
        omega)
      refine ⟨n + 1, by omega, ?_, ?_⟩
      · rw [Pull.behind, hrest, advance_advance, Nat.add_comm]
      · rw [Pull.behind, hitems, Cycle.stretch_succ]
        rfl

/-- An action that leaves the list of items alone takes a stretch of the cycle. -/
theorem itemwise_stretch [Machine] {p : Producer} {c : Cycle} (hcycle : p.cycle = .ok c)
    (action : Action) (hkeeps : ¬ action.EditsItems) :
    ∃ n ≤ p.remaining, (p.itemwise action).rest = p.advance n ∧
      (p.itemwise action).items = c.stretch p.position n := by
  have hnothing : ∃ n ≤ p.remaining, p = p.advance n ∧ [] = c.stretch p.position n :=
    ⟨0, Nat.zero_le _, rfl, rfl⟩
  cases action with
  | next =>
    simp only [itemwise]
    rcases Nat.eq_zero_or_pos p.remaining with hzero | hpos
    · rw [next_of_remaining_eq_zero hzero]
      exact hnothing
    · rw [next_of_cycle hcycle hpos]
      exact ⟨1, hpos, rfl, by rw [Cycle.stretch_succ]; rfl⟩
  | take count =>
    simp only [itemwise, Pull.course, pullUpTo_of_cycle hcycle]
    exact ⟨_, Nat.min_le_right _ _, rfl, rfl⟩
  | search wanted => exact pullUntil_stretch hcycle
  | collect container =>
    simp only [itemwise]
    cases container.reserve p with
    | error failure => exact hnothing
    | ok => cases container <;> exact pullUntil_stretch hcycle
  | collectBehind front =>
    cases front with
    | list front =>
      simp only [itemwise]
      cases Container.reserveBehind front.length p with
      | error failure => exact hnothing
      | ok => exact pullUntil_stretch hcycle
    | _ => exact hnothing
  | observe observation => exact hnothing
  | assignFixed number => exact hnothing
  | assignOther => exact hnothing
  | _ => exact absurd trivial hkeeps

/-- The items that a new producer is made of where they come from another one: none, unless its
kind and its counts are accepted. -/
def Session.fedItems [Machine] (session : Session) (kind : String) (limit claimed : Argument)
    (source : String) : List Value :=
  if kind.toList.contains '\x00' then []
  else match session.get source, counts limit claimed with
    | .ok p, .ok _ => (p.itemwise (.collect .list)).items
    | _, _ => []

/-- A step item by item: the producers afterwards, the answer, and the items that producers have
handed out, each under the name of its producer. -/
def Session.performItemwise [Machine] (session : Session) :
    Request → Session × Except Failure Value × List (String × Value)
  | .act name action =>
    match session.get name with
    | .error failure => (session, .error failure, [])
    | .ok p =>
      let course := p.itemwise action
      (session.insert name course.rest, course.answer, course.items.map fun item => (name, item))
  | .create name kind limit claimed (.producer source) =>
    let (after, answer) := session.create name kind limit claimed (.producer source)
    (after, answer,
      (session.fedItems kind limit claimed source).map fun item => (source, item))
  | request =>
    let (after, answer) := session.perform request
    (after, answer, [])

/-- A run item by item: the producers at the end, the answers, and all items handed out. -/
def Session.runItemwise [Machine] (session : Session) :
    List Request → Session × List (Except Failure Value) × List (String × Value)
  | [] => (session, [], [])
  | request :: rest =>
    let (session, answer, handed) := session.performItemwise request
    let (session, answers, more) := Session.runItemwise session rest
    (session, answer :: answers, handed ++ more)

/-- The items that the producer of a name has handed out. -/
def handedBy (name : String) (handed : List (String × Value)) : List Value :=
  handed.filterMap fun entry => if entry.1 = name then some entry.2 else none

/-- Items handed out by one producer are the items of its name and of no other one. -/
theorem handedBy_map (name other : String) (items : List Value) :
    handedBy name (items.map fun item => (other, item)) = if other = name then items else [] := by
  rw [handedBy, List.filterMap_map]
  by_cases hname : other = name
  · have hall : (fun entry : String × Value => if entry.1 = name then some entry.2 else none) ∘
        (fun item => (other, item)) = some := funext fun _ => if_pos hname
    rw [hall, List.filterMap_some, if_pos hname]
  · have hnone : (fun entry : String × Value => if entry.1 = name then some entry.2 else none) ∘
        (fun item => (other, item)) = fun _ => none := funext fun _ => if_neg hname
    rw [hnone, if_neg hname]
    exact List.filterMap_eq_nil_iff.mpr fun _ _ => rfl

/-- A step does the same item by item. -/
theorem Session.performItemwise_eq [Machine] (session : Session) (request : Request) :
    ((session.performItemwise request).1, (session.performItemwise request).2.1) =
      session.perform request := by
  cases request with
  | act name action =>
    rcases session.get_cases name with ⟨_, hget⟩ | ⟨p, hfind, hget⟩
    · simp only [performItemwise, hget, perform]
    · rw [perform_act hfind, ← p.itemwise_result action]
      simp only [performItemwise, hget, Course.result]
  | create name kind limit claimed source => cases source <;> rfl
  | _ => rfl

/-- A run does the same item by item. -/
theorem Session.runItemwise_eq [Machine] (session : Session) (requests : List Request) :
    ((session.runItemwise requests).1, (session.runItemwise requests).2.1) =
      session.run requests := by
  induction requests generalizing session with
  | nil => rfl
  | cons request rest ih =>
    have hstep := session.performItemwise_eq request
    have hrest := ih (session.performItemwise request).1
    simp only [runItemwise, run, ← hstep, ← hrest]

/-- A step that neither puts another producer under a name nor edits the items of the one that is
there. -/
def Request.Keeps (name : String) : Request → Prop
  | .create target _ _ _ _ => target ≠ name
  | .copy _ target => target ≠ name
  | .act other action => other = name → ¬ action.EditsItems
  | _ => True

/-- A producer that another one is made of is left with the items that it has not been asked for. -/
theorem Session.find?_createFrom_source [Machine] {session : Session} {name source : String}
    {p : Producer} (hfind : session.find? source = some p) (hne : source ≠ name) (kind : String)
    {limit claimed : Argument} {numbers : Nat × Nat} (hcounts : counts limit claimed = .ok numbers) :
    (session.createFrom name kind limit claimed source).1.find? source =
      some (p.collect .list).1 := by
  have hget : session.get source = .ok p := by
    simp only [Session.get, hfind]
  unfold Session.createFrom
  simp only [hget, hcounts]
  cases (p.collect .list).2 with
  | error failure => exact Registry.find?_insert_self session source _
  | ok items =>
    rcases start_cases kind numbers.1 numbers.2 (items.members?.getD []) with
      ⟨_, hstart⟩ | ⟨_, hstart⟩
    · simp only [hstart, Session.store]
      exact Registry.find?_insert_self session source _
    · simp only [hstart, Session.store]
      rw [Registry.find?_insert_of_ne _ hne]
      exact Registry.find?_insert_self session source _

/-- Making a producer takes a stretch of the cycle from the producer that it is made of. -/
theorem Session.fedItems_stretch [Machine] {session : Session} {name source : String} {p : Producer}
    {c : Cycle} (hfind : session.find? source = some p) (hcycle : p.cycle = .ok c)
    (hne : source ≠ name) (kind : String) (limit claimed : Argument) :
    ∃ n ≤ p.remaining,
      (session.create name kind limit claimed (.producer source)).1.find? source =
        some (p.advance n) ∧
      session.fedItems kind limit claimed source = c.stretch p.position n := by
  have hnothing : ∃ n ≤ p.remaining, session.find? source = some (p.advance n) ∧
      [] = c.stretch p.position n := ⟨0, Nat.zero_le _, hfind, rfl⟩
  have hget : session.get source = .ok p := by
    simp only [Session.get, hfind]
  unfold Session.create Session.fedItems
  by_cases hkind : kind.toList.contains '\x00' = true
  · simp only [hkind, if_true]
    exact hnothing
  · simp only [hkind, hget]
    cases hcounts : counts limit claimed with
    | error failure =>
      have hfailed : session.createFrom name kind limit claimed source =
          (session, .error failure) := by
        simp only [Session.createFrom, hget, hcounts]
      simp only [hfailed]
      exact hnothing
    | ok numbers =>
      obtain ⟨n, hn, hrest, hitems⟩ :=
        itemwise_stretch hcycle (.collect .list) (by simp [Action.EditsItems])
      have hcollect : (p.collect .list).1 = p.advance n := by
        rw [← hrest]
        exact (congrArg Prod.fst (p.itemwise_result (.collect .list))).symm
      refine ⟨n, hn, ?_, hitems⟩
      rw [← hcollect]
      exact Session.find?_createFrom_source hfind hne kind hcounts

/-- A step hands out nothing of a producer that it does not touch, and leaves it as it was. -/
theorem Session.performItemwise_of_not_touches [Machine] (session : Session) {name : String}
    {request : Request} (hname : ¬ request.Touches name) :
    (session.performItemwise request).1.find? name = session.find? name ∧
      handedBy name (session.performItemwise request).2.2 = [] := by
  constructor
  · have hsame := congrArg Prod.fst (session.performItemwise_eq request)
    have htransition := session.perform_transition request
    rw [hsame]
    exact htransition.find?_of_not_touches hname
  · cases request with
    | act other action =>
      have hother : ¬ other = name := hname
      rcases session.get_cases other with ⟨_, hget⟩ | ⟨q, _, hget⟩
      · simp only [performItemwise, hget]
        rfl
      · simp only [performItemwise, hget, handedBy_map, hother, if_false]
    | create target kind limit claimed source =>
      cases source with
      | value v => rfl
      | object kindName => rfl
      | producer source =>
        have hsource : ¬ source = name := fun h => hname (.inr (congrArg _ h))
        simp only [performItemwise, handedBy_map, hsource, if_false]
    | _ => rfl

/-- A step hands out a stretch of the cycle of each producer that it keeps. -/
theorem Session.performItemwise_stretch [Machine] {session : Session} {name : String} {p : Producer}
    {c : Cycle} (hfind : session.find? name = some p) (hcycle : p.cycle = .ok c)
    {request : Request} (hkeeps : request.Keeps name) :
    ∃ n ≤ p.remaining, (session.performItemwise request).1.find? name = some (p.advance n) ∧
      handedBy name (session.performItemwise request).2.2 = c.stretch p.position n := by
  by_cases htouches : request.Touches name
  · cases request with
    | act other action =>
      obtain rfl : other = name := htouches
      obtain ⟨n, hn, hrest, hitems⟩ := itemwise_stretch hcycle _ (hkeeps rfl)
      have hget : session.get other = .ok p := by
        simp only [Session.get, hfind]
      refine ⟨n, hn, ?_, ?_⟩
      · simp only [performItemwise, hget, hrest]
        exact Registry.find?_insert_self session other _
      · simp only [performItemwise, hget, handedBy_map, if_true, hitems]
    | create target kind limit claimed source =>
      have hne : target ≠ name := hkeeps
      obtain rfl : source = .producer name := htouches.resolve_left hne
      simp only [performItemwise, handedBy_map, if_true]
      exact Session.fedItems_stretch hfind hcycle hne.symm kind limit claimed
    | copy other target => exact absurd htouches hkeeps
    | _ => exact htouches.elim
  · obtain ⟨hsame, hnothing⟩ := session.performItemwise_of_not_touches htouches
    exact ⟨0, Nat.zero_le _, hsame.trans hfind, hnothing⟩

/-- A run hands out a stretch of the cycle of each producer that it keeps. -/
theorem Session.runItemwise_stretch [Machine] {session : Session} {name : String} {p : Producer}
    {c : Cycle} (hfind : session.find? name = some p) (hcycle : p.cycle = .ok c)
    {requests : List Request} (hkeeps : ∀ request ∈ requests, request.Keeps name) :
    ∃ n ≤ p.remaining, (session.runItemwise requests).1.find? name = some (p.advance n) ∧
      handedBy name (session.runItemwise requests).2.2 = c.stretch p.position n := by
  induction requests generalizing session p with
  | nil => exact ⟨0, Nat.zero_le _, hfind, rfl⟩
  | cons request rest ih =>
    obtain ⟨m, hm, hstep, hhanded⟩ :=
      performItemwise_stretch hfind hcycle (hkeeps request List.mem_cons_self)
    obtain ⟨n, hn, hrun, hmore⟩ := ih (p := p.advance m) hstep hcycle
      fun request hrequest => hkeeps request (List.mem_cons_of_mem _ hrequest)
    rw [remaining_advance] at hn
    refine ⟨m + n, by omega, ?_, ?_⟩
    · rwa [advance_advance] at hrun
    · simp only [runItemwise, handedBy, List.filterMap_append]
      simp only [handedBy] at hhanded hmore
      rw [hhanded, hmore, Cycle.stretch_add]
      rfl

/-- A producer at its start goes over the members of its list. -/
theorem cycle_stretch_of_list {xs : List Value} (hpos : 0 < xs.length) (kind : String)
    (limit claimed : Nat) :
    ∃ c, Producer.cycle ⟨kind, limit, claimed, 0, .list xs⟩ = .ok c ∧ ∀ n,
      c.stretch 0 n = (List.range n).map fun j => xs.get ⟨j % xs.length, Nat.mod_lt j hpos⟩ := by
  let p : Producer := ⟨kind, limit, claimed, 0, .list xs⟩
  obtain ⟨c, hcycle, hitem⟩ := exists_cycle (p := p) rfl hpos
  refine ⟨c, hcycle, fun n => ?_⟩
  rw [stretch_eq_membersFrom hitem, membersFrom]
  simp only [Nat.zero_add]
  rfl

/-- **The stream of a producer.** Let a producer be made of the members of a value, and let clients
take its items in any way and any order, look at it, compare it and copy it; only its list is left
alone. Item by item the run comes to the same producers and the same answers, and the items that
the producer has handed out are the members over and over, from the first one on, as many as its
position says. So none is lost, repeated or moved between clients, none is handed out beyond the
limit whatever is claimed, and once nothing is left as many have been handed out as the limit
says. -/
theorem Session.run_stream [Machine] (session : Session) {name kind : String}
    {limit claimed : Argument}
    {v : Value} {xs : List Value} (hmembers : v.members? = some xs) (hpos : 0 < xs.length)
    (hmade : (session.perform (.create name kind limit claimed (.value v))).2 = .ok .null)
    {requests : List Request} (hkeeps : ∀ request ∈ requests, request.Keeps name) :
    let made := (session.perform (.create name kind limit claimed (.value v))).1
    let run := made.runItemwise requests
    (run.1, run.2.1) = made.run requests ∧
      ∃ p, (made.run requests).1.find? name = some p ∧
        limit.asInteger? = some (p.limit : Int) ∧ p.position ≤ p.limit ∧
        handedBy name run.2.2 =
          (List.range p.position).map (fun j => xs.get ⟨j % xs.length, Nat.mod_lt j hpos⟩) ∧
        (p.remaining = 0 → (handedBy name run.2.2).length = p.limit) := by
  intro made run
  have hrun : (run.1, run.2.1) = made.run requests := made.runItemwise_eq requests
  refine ⟨hrun, ?_⟩
  have htransition := session.create_transition name kind limit claimed (.value v)
  rcases hcreate : session.create name kind limit claimed (.value v) with ⟨after, answer⟩
  have hmade_eq : made = after := congrArg Prod.fst hcreate
  obtain rfl : answer = .ok .null := (congrArg Prod.snd hcreate).symm.trans hmade
  rw [hcreate] at htransition
  cases htransition with
  | compared hnone => cases hnone
  | @made _ _ _ _ _ l c ys hcounts hys hnonempty =>
    obtain rfl : xs = ys := Option.some.inj (hmembers.symm.trans hys)
    obtain ⟨cycle, hcycle, hstretch⟩ := cycle_stretch_of_list hpos kind l c
    have hfind : made.find? name = some ⟨kind, l, c, 0, .list xs⟩ := by
      rw [hmade_eq]
      exact Registry.find?_insert_self session name _
    obtain ⟨n, hn, hfinal, hhanded⟩ := runItemwise_stretch hfind hcycle hkeeps
    have hhanded' : handedBy name run.2.2 =
        (List.range n).map fun j => xs.get ⟨j % xs.length, Nat.mod_lt j hpos⟩ :=
      hhanded.trans (hstretch n)
    have hle : n ≤ l := hn
    refine ⟨⟨kind, l, c, n, .list xs⟩, ?_, (asInteger?_of_counts hcounts).1, hle, hhanded', ?_⟩
    · rw [← hrun, hfinal, advance, Nat.zero_add]
    · intro hdone
      have hn' : l - n = 0 := hdone
      rw [hhanded', List.length_map, List.length_range]
      show n = l
      omega

/-- Two characters, over and over, are handed out five times to a call, a search, a byte string
that refuses the first one, and a list, while a copy is emptied. -/
theorem Session.run_stream_of_two_characters :
    let create : Request :=
      .create "source" "Source" (.plain (.int 5)) (.plain (.int 0)) (.value (.text "ab"))
    let requests : List Request :=
      [.act "source" .next, .act "source" (.search (.text "a")), .copy "source" "copy",
        .act "source" (.collect .bytes), .act "copy" .clear, .act "source" (.collect .list)]
    let made := (Session.perform .empty create).1
    (∀ request ∈ requests, request.Keeps "source") ∧
      (handedBy "source" (made.runItemwise requests).2.2).length = 5 := by
  intro create requests made
  have hkeeps : ∀ request ∈ requests, request.Keeps "source" := by
    simp [requests, Request.Keeps, Action.EditsItems]
  refine ⟨hkeeps, ?_⟩
  have hmade : (Session.perform .empty create).2 = .ok .null := rfl
  obtain ⟨_, p, hfind, _, _, _, hdrained⟩ :=
    Session.run_stream .empty rfl (by decide) hmade hkeeps
  have hend : (made.run requests).1.find? "source" =
      some ⟨"Source", 5, 0, 5, .list [.text "a", .text "b"]⟩ := by rfl
  obtain rfl := Option.some.inj (hend.symm.trans hfind)
  exact hdrained rfl

end Fixtures.Producer
