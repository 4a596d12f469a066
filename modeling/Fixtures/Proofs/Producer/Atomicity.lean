import Fixtures.Proofs.Producer.Transition

/-!
# Steps that fail

A step of a session either does all it was asked for or fails and leaves every producer as it was.
There is one exception: a byte container that is handed an item that is no byte has taken that item
and the ones before it.
-/

namespace Fixtures.Producer

/-- A failure to take a value as a byte is one of those that tell of an item that is no byte. -/
theorem refusesByte_of_byteOf {container : Container} {v : Value} {failure : Failure}
    (h : container.byteOf v = .error failure) : failure.RefusesByte := by
  obtain ⟨_, rfl⟩ := Container.byteOf_error_iff.mp h
  cases v.asInteger? with
  | none => trivial
  | some n => trivial

/-- What a byte container leaves behind that was handed an item that is no byte: only the producer
of its items has changed, and it stands just behind the first item that is no byte. -/
structure Session.Spoiled (before after : Session) (name : String) (container : Container) :
    Prop where
  /-- Only byte containers are particular about their items. -/
  holdsBytes : container.HoldsBytes
  /-- No name has come in and none has gone. -/
  names_eq : after.names = before.names
  /-- The producers of other names are as they were. -/
  find?_of_ne : ∀ other ≠ name, after.find? other = before.find? other
  /-- The producer has taken the bytes up to an item that is no byte, and that item. -/
  advanced : ∃ p c count, before.find? name = some p ∧ p.cycle = .ok c ∧
    p.position + count < p.limit ∧ (∀ j < count, (c.item (p.position + j)).IsByte) ∧
    ¬ (c.item (p.position + count)).IsByte ∧
    after.find? name = some { p with position := p.position + count + 1 }

/-- A byte container that was handed an item that is no byte changes one producer. -/
theorem Session.Spoiled.of_insert {session : Session} {name : String} {container : Container}
    {p : Producer} {c : Cycle} {before : Nat} {failure : Failure} (hholds : container.HoldsBytes)
    (hfind : session.find? name = some p) (hcycle : p.cycle = .ok c)
    (hbefore : before < p.remaining) (hbytes : ∀ j < before, (c.item (p.position + j)).IsByte)
    (hrefused : container.byteOf (c.item (p.position + before)) = .error failure) :
    session.Spoiled (session.insert name (p.advance (before + 1))) name container where
  holdsBytes := hholds
  names_eq := Registry.names_insert_of_isSome _ (by simp [hfind])
  find?_of_ne := fun other hne => Registry.find?_insert_of_ne session hne _
  advanced := by
    have hlt : p.position + before < p.limit := by
      unfold remaining at hbefore
      omega
    have hnoByte : ¬ (c.item (p.position + before)).IsByte :=
      (Container.byteOf_error_iff.mp hrefused).1
    exact ⟨p, c, before, hfind, hcycle, hlt, hbytes, hnoByte, Registry.find?_insert_self _ _ _⟩

/-- **A step that fails leaves all producers as they were**, unless a byte container was handed an
item that is no byte: then that producer alone has moved, to just behind the first such item. In
particular nothing is taken from a producer that a new one could not be made of, and taking,
searching and gathering into lists never fail half-way. -/
theorem Session.perform_of_error [Machine] {session : Session} {request : Request}
    {failure : Failure} (h : (session.perform request).2 = .error failure) :
    (¬ failure.RefusesByte ∧ (session.perform request).1 = session) ∨
      (failure.RefusesByte ∧ ∃ name container, request = .act name (.collect container) ∧
        session.Spoiled (session.perform request).1 name container) := by
  have htransition := session.perform_transition request
  rcases hperform : session.perform request with ⟨after, answer⟩
  rw [hperform] at h htransition
  obtain rfl : answer = .error failure := h
  cases htransition with
  | failed hcause => exact Or.inl ⟨hcause, rfl⟩
  | acted hfind haction =>
    cases haction with
    | failed hcause => exact Or.inl ⟨hcause, Registry.insert_of_find? hfind⟩
    | spoiled c before hholds hcycle hbefore hbytes hrefused =>
      exact Or.inr ⟨refusesByte_of_byteOf hrefused, _, _, rfl,
        .of_insert hholds hfind hcycle hbefore hbytes hrefused⟩

/-- A byte string of the items 1 and `a`, over and over, fails at the second item. -/
theorem Session.perform_of_error_at_text :
    let session : Session := ⟨[("source", ⟨"Source", 6, 2, 2, .list [.int 1, .text "a"]⟩)]⟩
    let request : Request := .act "source" (.collect .bytes)
    (session.perform request).2 = .error (.notAnInteger "str") ∧
      ∃ name container, request = .act name (.collect container) ∧
        session.Spoiled (session.perform request).1 name container := by
  intro session request
  have hanswer : (session.perform request).2 = .error (.notAnInteger "str") := by rfl
  refine ⟨hanswer, ?_⟩
  rcases Session.perform_of_error hanswer with ⟨hcause, _⟩ | ⟨_, hspoiled⟩
  · exact absurd trivial hcause
  · exact hspoiled

end Fixtures.Producer
