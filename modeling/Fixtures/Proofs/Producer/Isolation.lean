import Fixtures.Proofs.Producer.Lockstep

/-!
# Copies are isolated

The names of a session are divided into two sides, and every step is about names of one side only.
Then each side goes on as if the other one did nothing: however the steps of both are interleaved,
a side has the answers and the producers that its own steps have alone. A producer and its copy
start out equal, and on two sides they stay independent through everything done to either, further
copies included.
-/

namespace Fixtures.Producer

/-- Whether a step is about names of one side only. -/
def Request.On (side : String → Bool) (ours : Bool) (request : Request) : Bool :=
  request.names.all fun name => side name == ours

/-- A step on a side is about names of that side. -/
theorem Request.side_eq_of_on {side : String → Bool} {ours : Bool} {request : Request}
    (h : request.On side ours) {name : String} (hname : name ∈ request.names) :
    side name = ours :=
  eq_of_beq (List.all_eq_true.mp h name hname)

/-- The answers to the steps of one side. -/
def answersOn (side : String → Bool) (ours : Bool) (requests : List Request)
    (answers : List (Except Failure Value)) : List (Except Failure Value) :=
  ((requests.zip answers).filter fun step => step.1.On side ours).map Prod.snd

/-- The first answer counts if the first step is on the side. -/
theorem answersOn_cons (side : String → Bool) (ours : Bool) (request : Request)
    (requests : List Request) (answer : Except Failure Value)
    (answers : List (Except Failure Value)) :
    answersOn side ours (request :: requests) (answer :: answers) =
      if request.On side ours then answer :: answersOn side ours requests answers
      else answersOn side ours requests answers := by
  rw [answersOn, List.zip_cons_cons, List.filter_cons]
  split <;> rfl

namespace Session

/-- Two sessions hold the same producers on a side. -/
def AgreeOn (side : String → Bool) (ours : Bool) (s t : Session) : Prop :=
  ∀ name, side name = ours → s.find? name = t.find? name

variable {side : String → Bool} {ours : Bool} {s t : Session} {request : Request}

/-- Sessions that agree on a side are related by equality there. -/
theorem agreeOn_iff_related :
    AgreeOn side ours s t ↔ Related Eq (fun name => side name = ours) s t := by
  constructor
  · intro h name hname
    rw [h name hname]
    cases t.find? name with
    | none => exact .none
    | some p => exact .some rfl
  · intro h name hname
    have hrel := h name hname
    generalize s.find? name = p at hrel ⊢
    generalize t.find? name = q at hrel ⊢
    cases hrel with
    | none => rfl
    | some hpq => rw [hpq]

/-- A step on a side comes to the same in sessions that agree on it. -/
theorem AgreeOn.perform [Machine] (h : AgreeOn side ours s t) (hon : request.On side ours) :
    (s.perform request).2 = (t.perform request).2 ∧
      AgreeOn side ours (s.perform request).1 (t.perform request).1 := by
  have hrelated := agreeOn_iff_related.mp h
  obtain ⟨hanswer, hstep⟩ := hrelated.perform (fun _ => rfl)
    (fun name hname => Request.side_eq_of_on hon hname) request.respects_eq
  exact ⟨hanswer, agreeOn_iff_related.mpr hstep⟩

/-- A step on the other side does not matter. -/
theorem AgreeOn.perform_left [Machine] (h : AgreeOn side ours s t) (hon : request.On side !ours) :
    AgreeOn side ours (s.perform request).1 t := by
  intro name hname
  have hnot : name ∉ request.names := by
    intro hmem
    have hother := Request.side_eq_of_on hon hmem
    rw [hname] at hother
    exact absurd hother (by cases ours <;> simp)
  rw [s.find?_perform_of_not_mem hnot]
  exact h name hname

/-- **Interleaved runs.** In a run whose steps are each on one side, a side has the answers and the
producers that its own steps have alone, in any session that starts with the same producers on that
side. -/
theorem AgreeOn.run [Machine] {requests : List Request}
    (hsides : ∀ request ∈ requests, request.On side ours ∨ request.On side !ours)
    (h : AgreeOn side ours s t) :
    answersOn side ours requests (s.run requests).2 =
        (t.run (requests.filter (·.On side ours))).2 ∧
      AgreeOn side ours (s.run requests).1 (t.run (requests.filter (·.On side ours))).1 := by
  induction requests generalizing s t with
  | nil => exact ⟨rfl, h⟩
  | cons request rest ih =>
    -- A step on our side is taken by both runs, a step on the other side by the mixed run alone.
    have hrest : ∀ request ∈ rest, request.On side ours ∨ request.On side !ours :=
      fun request hmem => hsides request (List.mem_cons_of_mem _ hmem)
    by_cases hon : request.On side ours
    · obtain ⟨hanswer, hstep⟩ := h.perform hon
      obtain ⟨hanswers, hrun⟩ := ih hrest hstep
      rw [List.filter_cons_of_pos hon]
      refine ⟨?_, hrun⟩
      simp only [Session.run, answersOn_cons, if_pos hon, hanswer, hanswers]
    · have hother := (hsides request List.mem_cons_self).resolve_left hon
      obtain ⟨hanswers, hrun⟩ := ih hrest (h.perform_left hother)
      rw [List.filter_cons_of_neg hon]
      refine ⟨?_, hrun⟩
      simp only [Session.run, answersOn_cons, if_neg hon, hanswers]

/-- What is done with two producers does not matter to each other: wherever they are on two sides
and every step is on one side, each side has the answers and the producers that its own steps have
alone. -/
def Apart [Machine] (session : Session) (name other : String) : Prop :=
  ∀ side : String → Bool, side name = true → side other = false → ∀ requests : List Request,
    (∀ request ∈ requests, request.On side true ∨ request.On side false) →
    ∀ (ours : Bool) (start : Session),
      (∀ held, side held = ours → start.find? held = session.find? held) →
      let alone := start.run (requests.filter (·.On side ours))
      answersOn side ours requests (session.run requests).2 = alone.2 ∧
        ∀ held, side held = ours → (session.run requests).1.find? held = alone.1.find? held

/-- Producers of two names never matter to each other. -/
theorem apart [Machine] (session : Session) (name other : String) : session.Apart name other := by
  intro side _ _ requests hsides ours start hstart
  have hagree : AgreeOn side ours session start := fun held hheld => (hstart held hheld).symm
  apply hagree.run
  intro request hrequest
  cases ours with
  | true => exact hsides request hrequest
  | false => exact (hsides request hrequest).symm

/-- A copy of a producer that has members is the producer with a list of them. -/
theorem perform_copy_of_members [Machine] {name : String} {p : Producer} {x : Value}
    {xs : List Value} (hfind : s.find? name = some p) (hmembers : p.items.members? = some (x :: xs))
    (twin : String) :
    s.perform (.copy name twin) = (s.insert twin (p.withItems (.list (x :: xs))), .ok .null) := by
  have hcopy : p.copy = .ok (p.withItems (.list (x :: xs))) := by
    rw [copy_eq, hmembers]
  have hget : s.get name = .ok p := by
    simp only [Session.get, hfind]
  simp only [Session.perform, hget, bind, Except.bind, hcopy, Session.store]

/-- A copy of a producer of a list is put under its name as it is. -/
theorem perform_copy_of_list [Machine] {name : String} {p : Producer} {x : Value} {xs : List Value}
    (hfind : s.find? name = some p) (hitems : p.items = .list (x :: xs)) (twin : String) :
    s.perform (.copy name twin) = (s.insert twin p, .ok .null) := by
  have hmembers : p.items.members? = some (x :: xs) := by
    rw [hitems, Value.members?]
  have hsame : p.withItems (.list (x :: xs)) = p := by
    rw [← hitems, withItems]
  rw [perform_copy_of_members hfind hmembers, hsame]

/-- **Copies are equal and isolated.** A producer of a list that is not empty can be copied; its
copy has the same kind, limit, claim, position and items, and equals it. Let the producer and its
copy then be on two sides, and let there be steps of every sort, each on one side, further copies
and what is done to them included. However the steps are interleaved, each side has the answers and
in the end the producers that its own steps have alone, wherever they start with the same producers
on that side. -/
theorem copy_isolated [Machine] {session : Session} {name twin : String} {p : Producer} {x : Value}
    {xs : List Value} (hfind : session.find? name = some p) (hitems : p.items = .list (x :: xs))
    {side : String → Bool} (hname : side name = true) (htwin : side twin = false)
    {requests : List Request}
    (hsides : ∀ request ∈ requests, request.On side true ∨ request.On side false) :
    let copied := session.perform (.copy name twin)
    let mixed := copied.1.run requests
    copied.2 = .ok .null ∧ copied.1.find? name = some p ∧ copied.1.find? twin = some p ∧
      (copied.1.perform (.equal name twin)).2 = .ok (.bool true) ∧
      ∀ (ours : Bool) (start : Session),
        (∀ other, side other = ours → start.find? other = copied.1.find? other) →
        let alone := start.run (requests.filter (·.On side ours))
        answersOn side ours requests mixed.2 = alone.2 ∧
          ∀ other, side other = ours → mixed.1.find? other = alone.1.find? other := by
  intro copied mixed
  have hcopied : copied = (session.insert twin p, .ok .null) :=
    perform_copy_of_list hfind hitems twin
  have hne : name ≠ twin := by
    rintro rfl
    exact absurd (hname.symm.trans htwin) (by simp)
  have hnameAfter : copied.1.find? name = some p := by
    rw [hcopied, Registry.find?_insert_of_ne session hne]
    exact hfind
  have htwinAfter : copied.1.find? twin = some p := by
    rw [hcopied]
    exact Registry.find?_insert_self session twin p
  refine ⟨by rw [hcopied], hnameAfter, htwinAfter, ?_, ?_⟩
  · simp only [Session.perform, Session.compare, Session.get, hnameAfter, htwinAfter, bind,
      Except.bind, same_self]
  · intro ours start hstart alone
    have hagree : AgreeOn side ours copied.1 start := fun other hother => (hstart other hother).symm
    have hsides' : ∀ request ∈ requests, request.On side ours ∨ request.On side !ours := by
      intro request hrequest
      cases ours with
      | true => exact hsides request hrequest
      | false => exact (hsides request hrequest).symm
    exact hagree.run hsides'

/-- While a producer is emptied, its copy grows and is copied again; the copies answer as they
would if there were nothing else. -/
theorem copy_isolated_while_emptied :
    let p : Producer := ⟨"Source", 5, 2, 1, .list [.text "a", .null]⟩
    let session : Session := ⟨[("source", p)]⟩
    let side : String → Bool := fun name => name == "source"
    let requests : List Request :=
      [.act "source" .next, .act "copy" (.append (.int 7)), .copy "copy" "second",
        .act "source" .clear, .act "copy" (.collect .list), .act "source" .next,
        .act "second" (.take 3)]
    let mixed := (session.perform (.copy "source" "copy")).1.run requests
    let alone := Session.run ⟨[("copy", p)]⟩
      [.act "copy" (.append (.int 7)), .copy "copy" "second", .act "copy" (.collect .list),
        .act "second" (.take 3)]
    (∀ request ∈ requests, request.On side true ∨ request.On side false) ∧
      answersOn side false requests mixed.2 = alone.2 ∧
      mixed.1.find? "second" = alone.1.find? "second" := by
  intro p session side requests mixed alone
  have hsides : ∀ request ∈ requests, request.On side true ∨ request.On side false := by
    simp [requests, Request.On, Request.names, side]
  have hfind : session.find? "source" = some p := rfl
  have hname : side "source" = true := rfl
  have htwin : side "copy" = false := rfl
  obtain ⟨_, _, _, _, halone⟩ := copy_isolated hfind rfl hname htwin hsides
  have hstart : ∀ other, side other = false → Registry.find? ⟨[("copy", p)]⟩ other =
      (session.perform (.copy "source" "copy")).1.find? other := by
    intro other hother
    have hcopied : (session.perform (.copy "source" "copy")).1 =
        ⟨[("source", p), ("copy", p)]⟩ := rfl
    have hne : (other == "source") = false := hother
    rw [hcopied]
    simp only [Registry.find?, List.lookup_cons, hne]
  obtain ⟨hanswers, hrest⟩ := halone false ⟨[("copy", p)]⟩ hstart
  exact ⟨hsides, hanswers, hrest "second" rfl⟩

end Session

end Fixtures.Producer
