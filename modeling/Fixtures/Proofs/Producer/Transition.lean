import Fixtures.Producer.Session
import Fixtures.Proofs.Producer.Outcome

/-!
# What a step of a session can do

A step of a session fails and leaves every producer as it was, compares two producers, acts on one
producer, or puts a new producer under a name: one made of the members of a value, one made of the
items that another producer had left, or a copy. Everything that is proved about runs goes through
this case distinction.
-/

namespace Fixtures

/-- The integer that an argument stands for, if it stands for one. -/
def Argument.asInteger? : Argument → Option Int
  | .plain v => v.asInteger?
  | .indexed v => v.asInteger?
  | .noIndex => none

/-- A count is the integer that the argument stands for. -/
theorem Count.asInteger?_of_ofArgument {argument : Argument} {n : Nat}
    (h : Count.ofArgument argument = .ok n) : argument.asInteger? = some (n : Int) := by
  have hofInt {m : Int} (h : Count.ofInt m = .ok n) : m = n := by
    unfold Count.ofInt at h
    split at h
    · cases h
    · have hn : m.toNat = n := Except.ok.inj h
      omega
  cases argument with
  | plain v =>
    cases v with
    | int m => exact congrArg some (hofInt h)
    | _ => cases h
  | indexed v =>
    simp only [Count.ofArgument] at h
    cases hv : v.asInteger? with
    | none => simp [hv] at h
    | some m =>
      have hm := hofInt (by simpa [hv] using h)
      simp [Argument.asInteger?, hv, hm]
  | noIndex => cases h

namespace Producer

/-- The counts of a new producer are the integers that its arguments stand for. -/
theorem asInteger?_of_counts {limit claimed : Argument} {l c : Nat}
    (h : counts limit claimed = .ok (l, c)) :
    limit.asInteger? = some (l : Int) ∧ claimed.asInteger? = some (c : Int) := by
  unfold counts at h
  cases hlimit : Count.ofArgument limit with
  | error refusal => simp [hlimit] at h
  | ok l' =>
    cases hclaimed : Count.ofArgument claimed with
    | error refusal => simp [hlimit, hclaimed] at h
    | ok c' =>
      obtain ⟨rfl, rfl⟩ : l' = l ∧ c' = c := by simpa [hlimit, hclaimed] using h
      exact ⟨Count.asInteger?_of_ofArgument hlimit, Count.asInteger?_of_ofArgument hclaimed⟩

/-- The name that a step puts a producer under, if it is made for that. -/
def Request.target? : Request → Option String
  | .create name _ _ _ _ => some name
  | .copy _ target => some target
  | _ => none

/-- What a step of a session can do: the producers afterwards, and the answer. -/
inductive Session.Transition [Machine] (session : Session) :
    Request → Session × Except Failure Value → Prop where
  /-- It fails, and nothing has happened. -/
  | failed {request : Request} {failure : Failure} (hcause : ¬ failure.RefusesByte) :
    Transition session request (session, .error failure)
  /-- It compares two producers. -/
  | compared {request : Request} {answer : Value} (hnone : request.target? = none) :
    Transition session request (session, .ok answer)
  /-- It acts on one producer. -/
  | acted {name : String} {action : Action} {p q : Producer} {answer : Except Failure Value}
    (hfind : session.find? name = some p) (haction : Outcome p action (q, answer)) :
    Transition session (.act name action) (session.insert name q, answer)
  /-- It makes a producer of the members of a value. -/
  | made {name kind : String} {limit claimed : Argument} {v : Value} {l c : Nat} {xs : List Value}
    (hcounts : counts limit claimed = .ok (l, c)) (hmembers : v.members? = some xs)
    (hnonempty : xs ≠ []) :
    Transition session (.create name kind limit claimed (.value v))
      (session.insert name ⟨kind, l, c, 0, .list xs⟩, .ok .null)
  /-- It makes a producer of the items that another one had left. -/
  | fed {name kind source : String} {limit claimed : Argument} {l c : Nat} {xs : List Value}
    {p q : Producer} (hcounts : counts limit claimed = .ok (l, c))
    (hfind : session.find? source = some p) (hcollect : p.collect .list = (q, .ok (.list xs)))
    (hnonempty : xs ≠ []) :
    Transition session (.create name kind limit claimed (.producer source))
      ((session.insert source q).insert name ⟨kind, l, c, 0, .list xs⟩, .ok .null)
  /-- It puts a copy of a producer under a name. -/
  | copied {name target : String} {p : Producer} {xs : List Value}
    (hfind : session.find? name = some p) (hmembers : p.items.members? = some xs)
    (hnonempty : xs ≠ []) :
    Transition session (.copy name target)
      (session.insert target (p.withItems (.list xs)), .ok .null)

/-- The producers that a step can touch: the one it acts on, the one it puts under a name, and the
one that a new producer is made of. -/
def Request.Touches (name : String) : Request → Prop
  | .act other _ => other = name
  | .create target _ _ _ source => target = name ∨ source = .producer name
  | .copy _ target => target = name
  | _ => False

/-- A step leaves every producer as it was that it does not touch. -/
theorem Session.Transition.find?_of_not_touches [Machine] {session after : Session}
    {request : Request} {answer : Except Failure Value} {name : String}
    (h : session.Transition request (after, answer)) (hname : ¬ request.Touches name) :
    after.find? name = session.find? name := by
  cases h with
  | failed => rfl
  | compared => rfl
  | acted => exact Registry.find?_insert_of_ne session (fun h => hname h.symm) _
  | made => exact Registry.find?_insert_of_ne session (fun h => hname (.inl h.symm)) _
  | @fed target kind source =>
    have htarget : name ≠ target := fun h => hname (.inl h.symm)
    have hsource : name ≠ source := fun h => hname (.inr (congrArg _ h.symm))
    rw [Registry.find?_insert_of_ne _ htarget, Registry.find?_insert_of_ne _ hsource]
  | copied => exact Registry.find?_insert_of_ne session (fun h => hname h.symm) _

/-- Counts are refused because of an argument and never because of an item. -/
private theorem not_refusesByte_of_counts {limit claimed : Argument} {failure : Failure}
    (h : counts limit claimed = .error failure) : ¬ failure.RefusesByte := by
  unfold counts at h
  split at h
  · cases h
    exact id
  · split at h
    · cases h
      exact id
    · cases h

/-- A producer is made of items or refused because there are none. -/
theorem start_cases (kind : String) (l c : Nat) (xs : List Value) :
    (xs = [] ∧ start kind l c xs = .error .noItems) ∨
      (xs ≠ [] ∧ start kind l c xs = .ok ⟨kind, l, c, 0, .list xs⟩) := by
  cases xs with
  | nil => exact Or.inl ⟨rfl, rfl⟩
  | cons x xs => exact Or.inr ⟨by simp, rfl⟩

/-- A producer of the members of a value is refused, or starts with the counts that were asked for
and with those members. -/
theorem ofValue_cases (kind : String) (limit claimed : Argument) (v : Value) :
    (∃ failure, ¬ failure.RefusesByte ∧ ofValue kind limit claimed v = .error failure) ∨
      ∃ l c xs, counts limit claimed = .ok (l, c) ∧ v.members? = some xs ∧ xs ≠ [] ∧
        ofValue kind limit claimed v = .ok ⟨kind, l, c, 0, .list xs⟩ := by
  cases hcounts : counts limit claimed with
  | error failure =>
    exact Or.inl ⟨failure, not_refusesByte_of_counts hcounts, by
      simp [ofValue, hcounts, bind, Except.bind]⟩
  | ok numbers =>
    obtain ⟨l, c⟩ := numbers
    cases hmembers : v.members? with
    | none =>
      exact Or.inl ⟨.notIterable v.kindName, id, by
        simp [ofValue, hcounts, hmembers, bind, Except.bind]⟩
    | some xs =>
      have hofValue : ofValue kind limit claimed v = start kind l c xs := by
        simp [ofValue, hcounts, hmembers, bind, Except.bind]
      rcases start_cases kind l c xs with ⟨_, hstart⟩ | ⟨hne, hstart⟩
      · exact Or.inl ⟨.noItems, id, hofValue.trans hstart⟩
      · exact Or.inr ⟨l, c, xs, rfl, rfl, hne, hofValue.trans hstart⟩

/-- An object that cannot be gone through is refused, if the counts are not. -/
theorem exists_ofObject_eq_error (limit claimed : Argument) (kindName : String) :
    ∃ failure, ¬ failure.RefusesByte ∧ ofObject limit claimed kindName = .error failure := by
  cases hcounts : counts limit claimed with
  | error failure =>
    exact ⟨failure, not_refusesByte_of_counts hcounts, by
      simp [ofObject, hcounts, bind, Except.bind]⟩
  | ok numbers =>
    exact ⟨.notIterable kindName, id, by simp [ofObject, hcounts, bind, Except.bind]⟩

/-- The counts that a producer has are accepted again. -/
theorem counts_self (p : Producer) :
    counts (.plain (.int p.limit)) (.plain (.int p.claimed)) = .ok (p.limit, p.claimed) := by
  have hofInt (n : Nat) : Count.ofInt n = .ok n := by
    rw [Count.ofInt, if_neg (by omega), Int.toNat_natCast]
  simp [counts, Count.ofArgument, hofInt]

/-- A copy is the producer itself with a list of its own, unless there are no items to copy. -/
theorem copy_eq (p : Producer) : p.copy = match p.items.members? with
    | none => .error (.notIterable p.items.kindName)
    | some [] => .error .noItems
    | some (x :: xs) => .ok (p.withItems (.list (x :: xs))) := by
  unfold copy ofValue
  rw [counts_self]
  cases p.items.members? with
  | none => rfl
  | some xs => cases xs <;> rfl

/-- A copy is refused, or is the producer itself with a list of its own. -/
theorem copy_cases (p : Producer) :
    (∃ failure, ¬ failure.RefusesByte ∧ p.copy = .error failure) ∨
      ∃ xs, p.items.members? = some xs ∧ xs ≠ [] ∧ p.copy = .ok (p.withItems (.list xs)) := by
  rw [copy_eq]
  cases p.items.members? with
  | none => exact Or.inl ⟨_, id, rfl⟩
  | some xs =>
    cases xs with
    | nil => exact Or.inl ⟨_, id, rfl⟩
    | cons x xs => exact Or.inr ⟨x :: xs, rfl, by simp, rfl⟩

/-- All items that are left fill a list of as many members. -/
theorem collect_list_ok [Machine] {p q : Producer} {answer : Value}
    (h : p.collect .list = (q, .ok answer)) :
    q = p.advance p.remaining ∧ ∃ xs, answer = .list xs ∧ xs.length = p.remaining := by
  unfold collect at h
  cases hroom : Container.list.reserve p with
  | error failure => simp [hroom] at h
  | ok =>
    simp only [hroom, drain, take, Nat.min_self] at h
    by_cases hzero : p.remaining = 0
    · obtain ⟨rfl, rfl⟩ : p = q ∧ Value.list [] = answer := by
        simpa [hzero, Except.map] using h
      exact ⟨by simp [hzero], [], rfl, by simp [hzero]⟩
    · cases hcycle : p.cycle with
      | error failure => simp [hzero, hcycle, Except.map] at h
      | ok c =>
        obtain ⟨rfl, rfl⟩ : p.advance p.remaining = q ∧
            Value.list (c.stretch p.position p.remaining) = answer := by
          simpa [hzero, hcycle, Except.map] using h
        exact ⟨rfl, _, rfl, by simp⟩

/-- A session that has a producer under a name finds it. -/
theorem Session.get_cases (session : Session) (name : String) :
    (session.find? name = none ∧ session.get name = .error (.unknown name)) ∨
      ∃ p, session.find? name = some p ∧ session.get name = .ok p := by
  unfold Session.get
  cases hfind : session.find? name with
  | none => exact Or.inl ⟨rfl, rfl⟩
  | some p => exact Or.inr ⟨p, rfl, rfl⟩

/-- An action is done to the producer of its name. -/
theorem Session.perform_act [Machine] {session : Session} {name : String} {p : Producer}
    (hfind : session.find? name = some p) (action : Action) :
    session.perform (.act name action) =
      (session.insert name (p.perform action).1, (p.perform action).2) := by
  simp [Session.perform, Session.get, hfind]

/-- Making a producer of the items that another one has left takes all of them or none. -/
theorem Session.createFrom_transition [Machine] (session : Session) (name kind : String)
    (limit claimed : Argument) (source : String) :
    session.Transition (.create name kind limit claimed (.producer source))
      (session.createFrom name kind limit claimed source) := by
  unfold Session.createFrom
  rcases session.get_cases source with ⟨_, hget⟩ | ⟨p, hfind, hget⟩
  · simp only [hget]
    exact .failed id
  · cases hcounts : counts limit claimed with
    | error failure =>
      simp only [hget]
      exact .failed (not_refusesByte_of_counts hcounts)
    | ok numbers =>
      obtain ⟨l, c⟩ := numbers
      rcases hcollect : p.collect .list with ⟨q, gathered⟩
      have houtcome := p.collect_outcome .list
      rw [hcollect] at houtcome
      simp only [hget, hcollect]
      cases gathered with
      | error failure =>
        -- A list takes whatever it is handed, so a failure has come before the first item.
        cases houtcome with
        | failed hcause =>
          rw [Registry.insert_of_find? hfind]
          exact .failed hcause
        | spoiled c before hholds => exact absurd hholds (by simp [Container.HoldsBytes])
      | ok answer =>
        obtain ⟨rfl, xs, rfl, hlength⟩ := collect_list_ok hcollect
        simp only [Value.members?, Option.getD_some]
        rcases start_cases kind l c xs with ⟨hnil, hstart⟩ | ⟨hne, hstart⟩
        · -- Nothing was left, so nothing has been taken.
          have hzero : p.remaining = 0 := by simpa [hnil] using hlength.symm
          rw [hstart, hzero, advance_zero, Registry.insert_of_find? hfind]
          exact .failed id
        · rw [hstart]
          exact .fed hcounts hfind hcollect hne

/-- Making a producer takes the items of its source, or fails and takes none. -/
theorem Session.create_transition [Machine] (session : Session) (name kind : String)
    (limit claimed : Argument) (source : Source) :
    session.Transition (.create name kind limit claimed source)
      (session.create name kind limit claimed source) := by
  unfold Session.create
  split
  · exact .failed id
  · cases source with
    | producer source => exact session.createFrom_transition name kind limit claimed source
    | object kindName =>
      obtain ⟨failure, hcause, h⟩ := exists_ofObject_eq_error limit claimed kindName
      simp only [h, Session.store]
      exact .failed hcause
    | value v =>
      rcases ofValue_cases kind limit claimed v with
        ⟨failure, hcause, h⟩ | ⟨l, c, xs, hcounts, hmembers, hne, h⟩
      · simp only [h, Session.store]
        exact .failed hcause
      · simp only [h, Session.store]
        exact .made hcounts hmembers hne

/-- Comparing producers changes none of them. -/
theorem Session.compare_transition [Machine] (session : Session) {request : Request}
    (hnone : request.target? = none) (name other : String)
    (relation : Producer → Producer → Bool) :
    session.Transition request (session.compare name other relation) := by
  unfold Session.compare
  rcases session.get_cases name with ⟨_, hget⟩ | ⟨p, _, hget⟩
  · simp only [hget, bind, Except.bind]
    exact .failed id
  · rcases session.get_cases other with ⟨_, hother⟩ | ⟨q, _, hother⟩
    · simp only [hget, hother, bind, Except.bind]
      exact .failed id
    · simp only [hget, hother, bind, Except.bind]
      exact .compared hnone

/-- Every step of a session is one of these transitions. -/
theorem Session.perform_transition [Machine] (session : Session) (request : Request) :
    session.Transition request (session.perform request) := by
  cases request with
  | create name kind limit claimed source =>
    exact session.create_transition name kind limit claimed source
  | copy name target =>
    simp only [Session.perform]
    rcases session.get_cases name with ⟨_, hget⟩ | ⟨p, hfind, hget⟩
    · simp only [hget, bind, Except.bind, Session.store]
      exact .failed id
    · rcases p.copy_cases with ⟨failure, hcause, hcopy⟩ | ⟨xs, hmembers, hne, hcopy⟩
      · simp only [hget, hcopy, bind, Except.bind, Session.store]
        exact .failed hcause
      · simp only [hget, hcopy, bind, Except.bind, Session.store]
        exact .copied hfind hmembers hne
  | equal name other => exact session.compare_transition rfl name other _
  | differ name other => exact session.compare_transition rfl name other _
  | identical name other => exact session.compare_transition rfl name other _
  | act name action =>
    simp only [Session.perform]
    rcases session.get_cases name with ⟨_, hget⟩ | ⟨p, hfind, hget⟩
    · simp only [hget]
      exact .failed id
    · simp only [hget]
      exact .acted hfind (p.perform_outcome action)

end Producer

end Fixtures
