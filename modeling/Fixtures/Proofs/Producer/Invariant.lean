import Fixtures.Proofs.Producer.Transition

/-!
# What every run keeps

Along every run of a session each producer keeps the kind, the limit and the claim that it was made
with, its position grows up to the limit and no further, and once all items have been produced
none is produced again, whatever happens to the list of items. A client who writes down what the
producers were made with, from the requests and answers alone, knows these numbers at the end.
-/

namespace Fixtures.Producer

/-- What stays the same about a producer: its kind, and the integers that its limit and its claim
are. -/
structure Identity where
  /-- The name of the kind. -/
  kind : String
  /-- The number of items produced in all. -/
  limit : Option Int
  /-- The number of items claimed. -/
  claimed : Option Int
  deriving DecidableEq

/-- What stays the same about a producer. -/
def identity (p : Producer) : Identity :=
  ⟨p.kind, some p.limit, some p.claimed⟩

/-- A producer at some time and the same producer at a later time. -/
structure Follows (p q : Producer) : Prop where
  /-- Kind, limit and claim are fixed. -/
  identity_eq : q.identity = p.identity
  /-- What has been produced stays produced. -/
  position_le : p.position ≤ q.position
  /-- Nothing is produced beyond the limit. -/
  position_le_max : q.position ≤ max p.position p.limit

/-- No time has to pass. -/
theorem Follows.refl (p : Producer) : Follows p p :=
  ⟨rfl, Nat.le_refl _, Nat.le_max_left _ _⟩

/-- The limit is part of what stays the same. -/
theorem Follows.limit_eq {p q : Producer} (h : Follows p q) : q.limit = p.limit := by
  have hlimit : (q.limit : Int) = p.limit :=
    Option.some.inj (congrArg Identity.limit h.identity_eq)
  omega

/-- A still later time is a later time. -/
theorem Follows.trans {p q r : Producer} (hpq : Follows p q) (hqr : Follows q r) :
    Follows p r where
  identity_eq := hqr.identity_eq.trans hpq.identity_eq
  position_le := Nat.le_trans hpq.position_le hqr.position_le
  position_le_max := by
    have hlimit := hpq.limit_eq
    have hp := hpq.position_le_max
    have hq := hqr.position_le_max
    omega

/-- Items that are left can be taken. -/
theorem follows_advance {p : Producer} {count : Nat} (hcount : count ≤ p.remaining) :
    Follows p (p.advance count) where
  identity_eq := rfl
  position_le := Nat.le_add_right _ _
  position_le_max := by
    unfold remaining at hcount
    simp only [advance]
    omega

/-- The list of items has no part in what is kept. -/
theorem follows_withItems (p : Producer) (items : Value) : Follows p (p.withItems items) :=
  ⟨rfl, Nat.le_refl _, Nat.le_max_left _ _⟩

/-- A producer follows itself through every outcome of an action. -/
theorem Outcome.follows {p q : Producer} {action : Action} {answer : Except Failure Value}
    (h : Outcome p action (q, answer)) : Follows p q := by
  cases h with
  | failed => exact .refl p
  | taken count hcount => exact follows_advance hcount
  | edited items => exact follows_withItems p items
  | spoiled c before _ _ hbefore => exact follows_advance hbefore

/-- A producer that has produced up to its limit produces nothing more, whatever its items are. -/
theorem next_of_position_eq {p : Producer} (h : p.position = p.limit) :
    p.next = .error .exhausted :=
  next_of_remaining_eq_zero (by simp [remaining, h])

/-- A step puts another producer under a name if it is made for that and does not fail. -/
def Replaces (name : String) (step : Request × Except Failure Value) : Prop :=
  step.1.target? = some name ∧ ∃ answer, step.2 = .ok answer

/-- What a client writes down who is told a request and the answer: a new producer is known by the
arguments it was made with, and a copy by what is known of the producer it is a copy of. -/
def record (ledger : Registry Identity) : Request × Except Failure Value → Registry Identity
  | (.create name kind limit claimed _, .ok _) =>
    ledger.insert name ⟨kind, limit.asInteger?, claimed.asInteger?⟩
  | (.copy name target, .ok _) =>
    match ledger.find? name with
    | some identity => ledger.insert target identity
    | none => ledger
  | _ => ledger

/-- A ledger that knows of every name what stays the same about its producer. -/
def Knows (ledger : Registry Identity) (session : Session) : Prop :=
  ∀ name, ledger.find? name = (session.find? name).map identity

/-- A change of a producer that keeps its identity does not have to be known. -/
theorem Knows.insert_left {ledger : Registry Identity} {session : Session} {name : String}
    {p q : Producer} (h : Knows ledger session) (hfind : session.find? name = some p)
    (hidentity : q.identity = p.identity) : Knows ledger (session.insert name q) := by
  intro other
  by_cases hother : other = name
  · subst hother
    rw [Registry.find?_insert_self, h, hfind, Option.map_some, Option.map_some, hidentity]
  · rw [Registry.find?_insert_of_ne session hother, h]

/-- A producer that is written down is known. -/
theorem Knows.insert {ledger : Registry Identity} {session : Session} (h : Knows ledger session)
    (name : String) (p : Producer) :
    Knows (ledger.insert name p.identity) (session.insert name p) := by
  intro other
  by_cases hother : other = name
  · subst hother
    rw [Registry.find?_insert_self, Registry.find?_insert_self, Option.map_some]
  · rw [Registry.find?_insert_of_ne ledger hother, Registry.find?_insert_of_ne session hother, h]

/-- What a client writes down about a step is what the step does. -/
theorem Knows.record [Machine] {ledger : Registry Identity} {session : Session}
    (h : Knows ledger session) (request : Request) :
    Knows (record ledger (request, (session.perform request).2)) (session.perform request).1 := by
  have htransition := session.perform_transition request
  rcases hperform : session.perform request with ⟨after, answer⟩
  rw [hperform] at htransition
  cases htransition with
  | failed hcause => cases request <;> exact h
  | compared hnone =>
    cases request with
    | create name kind limit claimed source => cases hnone
    | copy name target => cases hnone
    | _ => exact h
  | acted hfind haction => exact h.insert_left hfind haction.follows.identity_eq
  | made hcounts hmembers hnonempty =>
    obtain ⟨hlimit, hclaimed⟩ := asInteger?_of_counts hcounts
    simp only [Producer.record, hlimit, hclaimed]
    exact h.insert _ ⟨_, _, _, 0, _⟩
  | @fed _ _ _ _ _ _ _ _ p _ hcounts hfind hcollect hnonempty =>
    obtain ⟨hlimit, hclaimed⟩ := asInteger?_of_counts hcounts
    obtain ⟨rfl, _⟩ := collect_list_ok hcollect
    simp only [Producer.record, hlimit, hclaimed]
    exact (h.insert_left (q := p.advance p.remaining) hfind rfl).insert _ ⟨_, _, _, 0, _⟩
  | @copied name target p xs hfind hmembers hnonempty =>
    have hknown := h name
    rw [hfind, Option.map_some] at hknown
    simp only [Producer.record, hknown]
    exact h.insert target (p.withItems (.list xs))

/-- A producer that no step replaces follows itself through the step. -/
theorem Session.follows_perform [Machine] {session : Session} {request : Request} {name : String}
    {p : Producer} (hfind : session.find? name = some p)
    (hkeeps : ¬ Replaces name (request, (session.perform request).2)) :
    ∃ q, (session.perform request).1.find? name = some q ∧ Follows p q := by
  have htransition := session.perform_transition request
  rcases hperform : session.perform request with ⟨after, answer⟩
  rw [hperform] at htransition hkeeps
  -- An action, or being drained for another producer, is the only way to change.
  have hinsert {other : String} {p' q : Producer} (hother : session.find? other = some p')
      (hfollows : Follows p' q) :
      ∃ r, (session.insert other q).find? name = some r ∧ Follows p r := by
    by_cases hname : name = other
    · subst hname
      obtain rfl : p = p' := Option.some.inj (hfind.symm.trans hother)
      exact ⟨q, Registry.find?_insert_self _ _ _, hfollows⟩
    · exact ⟨p, (Registry.find?_insert_of_ne session hname q).trans hfind, .refl p⟩
  have hother {target : String} {answer : Value} (htarget : request.target? = some target)
      (hanswer : Replaces name (request, .ok answer) → False) : name ≠ target := by
    rintro rfl
    exact hanswer ⟨htarget, answer, rfl⟩
  cases htransition with
  | failed => exact ⟨p, hfind, .refl p⟩
  | compared => exact ⟨p, hfind, .refl p⟩
  | acted hacted haction => exact hinsert hacted haction.follows
  | made =>
    rw [Registry.find?_insert_of_ne session (hother rfl hkeeps)]
    exact ⟨p, hfind, .refl p⟩
  | fed hcounts hsource hcollect =>
    obtain ⟨rfl, _⟩ := collect_list_ok hcollect
    rw [Registry.find?_insert_of_ne _ (hother rfl hkeeps)]
    exact hinsert hsource (follows_advance (Nat.le_refl _))
  | copied =>
    rw [Registry.find?_insert_of_ne session (hother rfl hkeeps)]
    exact ⟨p, hfind, .refl p⟩

/-- A producer that no step of a run replaces follows itself through the run. -/
theorem Session.follows_run [Machine] {session : Session} {requests : List Request} {name : String}
    {p : Producer} (hfind : session.find? name = some p)
    (hkeeps : ∀ step ∈ requests.zip (session.run requests).2, ¬ Replaces name step) :
    ∃ q, (session.run requests).1.find? name = some q ∧ Follows p q := by
  induction requests generalizing session p with
  | nil => exact ⟨p, hfind, .refl p⟩
  | cons request rest ih =>
    simp only [Session.run, List.zip_cons_cons, List.mem_cons, forall_eq_or_imp] at hkeeps ⊢
    obtain ⟨q, hq, hpq⟩ := follows_perform hfind hkeeps.1
    obtain ⟨r, hr, hqr⟩ := ih hq hkeeps.2
    exact ⟨r, hr, hpq.trans hqr⟩

/-- What a client has written down at the end of a run is what has happened. -/
theorem Knows.run [Machine] {ledger : Registry Identity} {session : Session}
    (h : Knows ledger session) (requests : List Request) :
    Knows ((requests.zip (session.run requests).2).foldl Producer.record ledger)
      (session.run requests).1 := by
  induction requests generalizing ledger session with
  | nil => exact h
  | cons request rest ih => exact ih (h.record request)

/-- No producer has produced more items than its limit says. -/
def Session.WithinLimits (session : Session) : Prop :=
  ∀ name p, session.find? name = some p → p.position ≤ p.limit

/-- A session stays within the limits where a producer comes in that has not passed its own. -/
theorem Session.WithinLimits.insert {session : Session} (h : session.WithinLimits) {name : String}
    {q : Producer} (hq : q.position ≤ q.limit) : WithinLimits (session.insert name q) := by
  intro other p hfind
  by_cases hother : other = name
  · subst hother
    obtain rfl : q = p := by simpa using hfind
    exact hq
  · rw [Registry.find?_insert_of_ne session hother] at hfind
    exact h other p hfind

/-- A producer within its limit stays there. -/
theorem Follows.position_le_limit {p q : Producer} (h : Follows p q) (hp : p.position ≤ p.limit) :
    q.position ≤ q.limit := by
  have hlimit := h.limit_eq
  have hmax := h.position_le_max
  omega

/-- Every step keeps within the limits. -/
theorem Session.WithinLimits.perform [Machine] {session : Session} (h : session.WithinLimits)
    (request : Request) : (session.perform request).1.WithinLimits := by
  have htransition := session.perform_transition request
  rcases hperform : session.perform request with ⟨after, answer⟩
  rw [hperform] at htransition
  cases htransition with
  | failed => exact h
  | compared => exact h
  | acted hfind haction => exact h.insert (haction.follows.position_le_limit (h _ _ hfind))
  | made => exact h.insert (Nat.zero_le _)
  | fed hcounts hfind hcollect =>
    obtain ⟨rfl, _⟩ := collect_list_ok hcollect
    have hdrained := (follows_advance (Nat.le_refl _)).position_le_limit (h _ _ hfind)
    exact (h.insert hdrained).insert (Nat.zero_le _)
  | copied hfind =>
    exact h.insert ((follows_withItems _ _).position_le_limit (h _ _ hfind))

/-- Every run keeps within the limits. -/
theorem Session.WithinLimits.run [Machine] {session : Session} (h : session.WithinLimits)
    (requests : List Request) : (session.run requests).1.WithinLimits := by
  induction requests generalizing session with
  | nil => exact h
  | cons request rest ih => exact ih (h.perform request)

/-- A run in two parts goes on from where the first part has led. -/
theorem Session.run_append [Machine] (session : Session) (before after : List Request) :
    session.run (before ++ after) =
      (((session.run before).1.run after).1,
        (session.run before).2 ++ ((session.run before).1.run after).2) := by
  induction before generalizing session with
  | nil => rfl
  | cons request rest ih => simp [Session.run, ih]

/-- A producer that has no next item says so and stays as it is. -/
theorem Session.perform_next_of_exhausted [Machine] {session : Session} {name : String}
    {p : Producer} (hfind : session.find? name = some p) (hnext : p.next = .error .exhausted) :
    session.perform (.act name .next) = (session, .error .exhausted) := by
  have hperform : p.perform .next = (p, .error .exhausted) := by
    simp only [Producer.perform, hnext]
  rw [Session.perform_act hfind, hperform, Registry.insert_of_find? hfind]

/-- **What every run keeps.** After any run that starts with no producers, each producer is at a
position from zero to its limit and shows as many items to come as the limit is away, its hint
is from zero to its claim, and its kind, limit and claim are the ones that were written down when
it was made or copied. Going on from there, a producer that is not replaced keeps these numbers
and its position never falls; and one that has produced all its items stays where it is and answers
each further call by saying so, whatever has become of its items. -/
theorem Session.run_invariant [Machine] (before after : List Request) :
    let middle := Session.run .empty before
    let final := middle.1.run after
    (∀ name p, final.1.find? name = some p →
      (0 ≤ p.position ∧ p.position ≤ p.limit) ∧
      (final.1.perform (.act name (.observe .remaining))).2 =
        .ok (.int ((p.limit : Int) - p.position)) ∧
      (final.1.perform (.act name (.observe .hint))).2 =
        .ok (.tuple [.int 0, .int p.claimed]) ∧
      (((before ++ after).zip (middle.2 ++ final.2)).foldl record .empty).find? name =
        some ⟨p.kind, some p.limit, some p.claimed⟩) ∧
    ∀ name p, middle.1.find? name = some p →
      (∀ step ∈ after.zip final.2, ¬ Replaces name step) →
      ∃ q, final.1.find? name = some q ∧
        q.kind = p.kind ∧ q.limit = p.limit ∧ q.claimed = p.claimed ∧
        p.position ≤ q.position ∧
        (p.position = p.limit → q.position = p.position ∧
          final.1.perform (.act name .next) = (final.1, .error .exhausted)) := by
  intro middle final
  have hrun : Session.run .empty (before ++ after) = (final.1, middle.2 ++ final.2) :=
    Session.run_append .empty before after
  have hempty (name : String) : (Registry.empty : Session).find? name = none := rfl
  constructor
  · intro name p hfind
    have hwithin : final.1.WithinLimits := by
      have hstart : Session.WithinLimits .empty := by
        intro name p h
        rw [hempty] at h
        cases h
      have := hstart.run (before ++ after)
      rwa [hrun] at this
    have hknows := (show Knows .empty .empty from fun name => rfl).run (before ++ after)
    rw [hrun] at hknows
    have hle : p.position ≤ p.limit := hwithin name p hfind
    refine ⟨⟨Nat.zero_le _, hle⟩, ?_, ?_, ?_⟩
    · rw [Session.perform_act hfind, Producer.perform, observe, remaining, Int.ofNat_sub hle]
    · rw [Session.perform_act hfind, Producer.perform, observe]
    · rw [hknows name, hfind, Option.map_some, identity]
  · intro name p hfind hkeeps
    obtain ⟨q, hq, hfollows⟩ := Session.follows_run hfind hkeeps
    have hkind : q.kind = p.kind := congrArg Identity.kind hfollows.identity_eq
    have hclaimed : q.claimed = p.claimed := by
      have h := Option.some.inj (congrArg Identity.claimed hfollows.identity_eq)
      exact Int.ofNat.inj h
    refine ⟨q, hq, hkind, hfollows.limit_eq, hclaimed, hfollows.position_le, ?_⟩
    intro hdone
    have hmax := hfollows.position_le_max
    have hle := hfollows.position_le
    have hposition : q.position = p.position := by omega
    have hexhausted : q.next = .error .exhausted :=
      next_of_position_eq (by rw [hposition, hdone, hfollows.limit_eq])
    exact ⟨hposition, Session.perform_next_of_exhausted hq hexhausted⟩

/-- A producer of two items stays where it is when its list grows and when it is emptied. -/
theorem Session.run_invariant_after_clear :
    let before : List Request :=
      [.create "source" "Source" (.plain (.int 2)) (.indexed (.int 9)) (.value (.text "a")),
        .act "source" (.collect .tuple)]
    let after : List Request :=
      [.act "source" (.append .null), .act "source" .next, .act "source" .clear]
    let middle := Session.run .empty before
    let p : Producer := ⟨"Source", 2, 9, 2, .list [.text "a"]⟩
    middle.1.find? "source" = some p ∧
      ∃ q, (middle.1.run after).1.find? "source" = some q ∧ q.position = p.position ∧
        (middle.1.run after).1.perform (.act "source" .next) =
          ((middle.1.run after).1, .error .exhausted) := by
  intro before after middle p
  have hfind : middle.1.find? "source" = some p := by rfl
  have hkeeps : ∀ step ∈ after.zip (middle.1.run after).2, ¬ Replaces "source" step := by
    rintro ⟨request, answer⟩ hstep ⟨htarget, _⟩
    have hmem : request ∈ after := (List.of_mem_zip hstep).1
    simp only [after, List.mem_cons, List.not_mem_nil, or_false] at hmem
    rcases hmem with rfl | rfl | rfl <;> cases htarget
  obtain ⟨q, hq, _, _, _, _, hdone⟩ :=
    (Session.run_invariant before after).2 "source" p hfind hkeeps
  exact ⟨hfind, q, hq, hdone rfl⟩

end Fixtures.Producer
