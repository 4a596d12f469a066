import Fixtures.Proofs.Producer.Transition

/-!
# Two sessions in lockstep

Two sessions that hold related producers under some names go through the same steps. A step that is
about these names only, and that cannot tell related producers apart, has the same answer in both
and leaves related producers again. Everything that is proved about pairs of runs goes through
`Related.perform`.
-/

namespace Fixtures.Producer

/-- The names that a step is about. -/
def Request.names : Request → List String
  | .create name _ _ _ (.value _) => [name]
  | .create name _ _ _ (.object _) => [name]
  | .create name _ _ _ (.producer source) => [name, source]
  | .copy name target => [name, target]
  | .equal name other => [name, other]
  | .differ name other => [name, other]
  | .identical name other => [name, other]
  | .act name _ => [name]

/-- A step touches only names that it is about. -/
theorem Request.mem_names_of_touches {name : String} {request : Request}
    (h : request.Touches name) : name ∈ request.names := by
  cases request with
  | act other action => exact List.mem_singleton.mpr h.symm
  | copy other target => simp [names, show target = name from h]
  | create target kind limit claimed source =>
    rcases h with rfl | rfl
    · cases source <;> simp [names]
    · simp [names]
  | _ => exact h.elim

/-- A step leaves the producers as they were that it is not about. -/
theorem Session.find?_perform_of_not_mem [Machine] (session : Session) {request : Request}
    {name : String} (hname : name ∉ request.names) :
    (session.perform request).1.find? name = session.find? name :=
  (session.perform_transition request).find?_of_not_touches fun h =>
    hname (Request.mem_names_of_touches h)

/-- Both of two attempts give producers, which are related, or both fail for the same reason. -/
def Alike (rel : Producer → Producer → Prop) :
    Except Failure Producer → Except Failure Producer → Prop
  | .ok p, .ok q => rel p q
  | .error failure, .error other => failure = other
  | _, _ => False

/-- An attempt is like itself. -/
theorem alike_self {rel : Producer → Producer → Prop} (hrefl : ∀ p, rel p p)
    (made : Except Failure Producer) : Alike rel made made := by
  cases made with
  | ok p => exact hrefl p
  | error failure => exact rfl

/-- An action that has the same answer for related producers and leaves related ones. -/
def Action.Respects [Machine] (rel : Producer → Producer → Prop) (action : Action) : Prop :=
  ∀ p q, rel p q →
    (p.perform action).2 = (q.perform action).2 ∧ rel (p.perform action).1 (q.perform action).1

/-- What a step must not do differently with related producers. -/
def Request.Respects [Machine] (rel : Producer → Producer → Prop) : Request → Prop
  | .create _ _ _ _ (.value _) => True
  | .create _ _ _ _ (.object _) => True
  | .create _ _ _ _ (.producer _) => (Action.collect .list).Respects rel
  | .copy _ _ => ∀ p q, rel p q → Alike rel p.copy q.copy
  | .equal _ _ | .differ _ _ =>
    ∀ p q p' q', rel p q → rel p' q' → p.same p' = q.same q'
  | .identical _ _ => True
  | .act _ action => action.Respects rel

/-- Every step does the same with the same producers. -/
theorem Request.respects_eq [Machine] (request : Request) : request.Respects Eq := by
  have haction (action : Action) : action.Respects Eq := by
    rintro p _ rfl
    exact ⟨rfl, rfl⟩
  cases request with
  | create name kind limit claimed source =>
    cases source with
    | value v => trivial
    | object kindName => trivial
    | producer source => exact haction _
  | copy name target =>
    rintro p _ rfl
    exact alike_self (fun _ => rfl) p.copy
  | equal name other =>
    rintro p _ p' _ rfl rfl
    rfl
  | differ name other =>
    rintro p _ p' _ rfl rfl
    rfl
  | identical name other => trivial
  | act name action => exact haction action

namespace Session

/-- Under each of some names two sessions hold related producers, or neither holds one. -/
def Related (rel : Producer → Producer → Prop) (on : String → Prop) (s t : Session) : Prop :=
  ∀ name, on name → Option.Rel rel (s.find? name) (t.find? name)

/-- Two steps have the same answer and leave related producers. -/
def InStep (rel : Producer → Producer → Prop) (on : String → Prop)
    (first second : Session × Except Failure Value) : Prop :=
  first.2 = second.2 ∧ Related rel on first.1 second.1

variable {rel : Producer → Producer → Prop} {on : String → Prop} {s t : Session}

/-- A session holds what it holds. -/
theorem related_self (hrefl : ∀ p, rel p p) (s : Session) : Related rel on s s := by
  intro name _
  cases s.find? name with
  | none => exact .none
  | some p => exact .some (hrefl p)

/-- What follows from the relation holds of related producers. -/
theorem Related.mono {weaker : Producer → Producer → Prop} (h : Related rel on s t)
    (himp : ∀ p q, rel p q → weaker p q) : Related weaker on s t := by
  intro name hname
  have hrel := h name hname
  generalize s.find? name = p at hrel ⊢
  generalize t.find? name = q at hrel ⊢
  cases hrel with
  | none => exact .none
  | some hpq => exact .some (himp _ _ hpq)

/-- Looking for a producer comes to the same in both sessions. -/
theorem Related.get (h : Related rel on s t) {name : String} (hname : on name) :
    (∃ failure, s.get name = .error failure ∧ t.get name = .error failure) ∨
      ∃ p q, s.find? name = some p ∧ t.find? name = some q ∧ s.get name = .ok p ∧
        t.get name = .ok q ∧ rel p q := by
  have hrel := h name hname
  unfold Session.get
  cases hs : s.find? name with
  | none =>
    cases ht : t.find? name with
    | none => exact Or.inl ⟨_, rfl, rfl⟩
    | some q => simp [hs, ht] at hrel
  | some p =>
    cases ht : t.find? name with
    | none => simp [hs, ht] at hrel
    | some q =>
      have hpq : rel p q := by simpa [hs, ht] using hrel
      exact Or.inr ⟨p, q, rfl, rfl, rfl, rfl, hpq⟩

/-- Putting in related producers keeps the sessions related. -/
theorem Related.insert (h : Related rel on s t) {p q : Producer} (hpq : rel p q) (name : String) :
    Related rel on (s.insert name p) (t.insert name q) := by
  intro other hother
  by_cases hname : other = name
  · subst hname
    rw [Registry.find?_insert_self, Registry.find?_insert_self]
    exact .some hpq
  · rw [Registry.find?_insert_of_ne s hname, Registry.find?_insert_of_ne t hname]
    exact h other hother

/-- Storing what two attempts have come to keeps the sessions in lockstep. -/
theorem Related.store (h : Related rel on s t) {made other : Except Failure Producer}
    (halike : Alike rel made other) (name : String) :
    InStep rel on (s.store name made) (t.store name other) := by
  cases made with
  | error failure =>
    cases other with
    | error reason => exact ⟨congrArg Except.error halike, h⟩
    | ok q => exact halike.elim
  | ok p =>
    cases other with
    | error reason => exact halike.elim
    | ok q => exact ⟨rfl, h.insert halike name⟩

/-- Acting on related producers keeps the sessions in lockstep. -/
theorem Related.perform_act [Machine] (h : Related rel on s t) {name : String} (hname : on name)
    {action : Action} (hrespects : action.Respects rel) :
    InStep rel on (s.perform (.act name action)) (t.perform (.act name action)) := by
  rcases h.get hname with ⟨failure, hs, ht⟩ | ⟨p, q, hs, ht, _, _, hpq⟩
  · simp only [Session.perform, hs, ht]
    exact ⟨rfl, h⟩
  · obtain ⟨hanswer, hrest⟩ := hrespects p q hpq
    rw [Session.perform_act hs, Session.perform_act ht]
    exact ⟨hanswer, h.insert hrest name⟩

/-- Comparing producers that cannot be told apart keeps the sessions in lockstep. -/
theorem Related.compare (h : Related rel on s t) {name other : String} (hname : on name)
    (hother : on other) {relation : Producer → Producer → Bool}
    (hrespects : ∀ p q p' q', rel p q → rel p' q' → relation p p' = relation q q') :
    InStep rel on (s.compare name other relation) (t.compare name other relation) := by
  unfold Session.compare
  rcases h.get hname with ⟨failure, hs, ht⟩ | ⟨p, q, _, _, hs, ht, hpq⟩
  · simp only [hs, ht, bind, Except.bind]
    exact ⟨rfl, h⟩
  · rcases h.get hother with ⟨failure, hs', ht'⟩ | ⟨p', q', _, _, hs', ht', hpq'⟩
    · simp only [hs, ht, hs', ht', bind, Except.bind]
      exact ⟨rfl, h⟩
    · simp only [hs, ht, hs', ht', bind, Except.bind, hrespects p q p' q' hpq hpq']
      exact ⟨rfl, h⟩

/-- Making a producer of the items of related ones keeps the sessions in lockstep. -/
theorem Related.createFrom [Machine] (hrefl : ∀ p, rel p p) (h : Related rel on s t)
    (name kind : String) (limit claimed : Argument) {source : String} (hsource : on source)
    (hrespects : (Action.collect .list).Respects rel) :
    InStep rel on (s.createFrom name kind limit claimed source)
      (t.createFrom name kind limit claimed source) := by
  unfold Session.createFrom
  rcases h.get hsource with ⟨failure, hs, ht⟩ | ⟨p, q, _, _, hs, ht, hpq⟩
  · simp only [hs, ht]
    exact ⟨rfl, h⟩
  · simp only [hs, ht]
    cases counts limit claimed with
    | error failure => exact ⟨rfl, h⟩
    | ok numbers =>
      obtain ⟨hanswer, hrest⟩ := hrespects p q hpq
      have hanswer' : (p.collect .list).2 = (q.collect .list).2 := hanswer
      -- The source has been drained by now, even if nothing is made of its items.
      have hdrained : Related rel on (s.insert source (p.collect .list).1)
          (t.insert source (q.collect .list).1) := h.insert hrest source
      simp only [hanswer']
      cases (q.collect .list).2 with
      | error failure => exact ⟨rfl, hdrained⟩
      | ok items => exact hdrained.store (alike_self hrefl _) name

/-- **Steps in lockstep.** Sessions that hold related producers answer alike to a step that cannot
tell them apart, and hold related producers afterwards. -/
theorem Related.perform [Machine] (hrefl : ∀ p, rel p p) (h : Related rel on s t)
    {request : Request} (hnames : ∀ name ∈ request.names, on name)
    (hrespects : request.Respects rel) :
    InStep rel on (s.perform request) (t.perform request) := by
  cases request with
  | create name kind limit claimed source =>
    simp only [Session.perform, Session.create]
    split
    · exact ⟨rfl, h⟩
    · cases source with
      | value v => exact h.store (alike_self hrefl _) name
      | object kindName => exact h.store (alike_self hrefl _) name
      | producer source =>
        exact h.createFrom hrefl name kind limit claimed (hnames source (by simp [Request.names]))
          hrespects
  | copy name target =>
    simp only [Session.perform]
    rcases h.get (hnames name (by simp [Request.names])) with
      ⟨failure, hs, ht⟩ | ⟨p, q, _, _, hs, ht, hpq⟩
    · simp only [hs, ht, bind, Except.bind]
      exact ⟨rfl, h⟩
    · simp only [hs, ht, bind, Except.bind]
      exact h.store (hrespects p q hpq) target
  | equal name other =>
    exact h.compare (hnames name (by simp [Request.names])) (hnames other (by simp [Request.names]))
      hrespects
  | differ name other =>
    refine h.compare (hnames name (by simp [Request.names]))
      (hnames other (by simp [Request.names])) ?_
    intro p q p' q' hpq hpq'
    rw [hrespects p q p' q' hpq hpq']
  | identical name other =>
    exact h.compare (hnames name (by simp [Request.names])) (hnames other (by simp [Request.names]))
      fun _ _ _ _ _ _ => rfl
  | act name action => exact h.perform_act (hnames name (by simp [Request.names])) hrespects

/-- **Runs in lockstep.** What holds of one step holds of a whole run. -/
theorem Related.run [Machine] (hrefl : ∀ p, rel p p) (h : Related rel on s t)
    {requests : List Request} (hnames : ∀ request ∈ requests, ∀ name ∈ request.names, on name)
    (hrespects : ∀ request ∈ requests, request.Respects rel) :
    (s.run requests).2 = (t.run requests).2 ∧
      Related rel on (s.run requests).1 (t.run requests).1 := by
  induction requests generalizing s t with
  | nil => exact ⟨rfl, h⟩
  | cons request rest ih =>
    simp only [List.mem_cons, forall_eq_or_imp] at hnames hrespects
    obtain ⟨hanswer, hstep⟩ := h.perform hrefl hnames.1 hrespects.1
    obtain ⟨hanswers, hrun⟩ := ih hstep hnames.2 hrespects.2
    simp only [Session.run]
    exact ⟨by rw [hanswer, hanswers], hrun⟩

end Session

end Fixtures.Producer
