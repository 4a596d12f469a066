import Fixtures.Proofs.Producer.Transition
import Fixtures.Proofs.Value.Denotation

/-!
# Equality of producers

Two producers are equal if they are of one kind and have the same limit, claim and position and
equal items, where numbers among the items are compared exactly. So asked, a session always has an
answer: the answers make up an equivalence, difference is the opposite of equality, and no producer
equals a value.
-/

namespace Fixtures.Producer

/-- Two producers agree in all that can be seen of them. -/
structure Agrees (p q : Producer) : Prop where
  /-- They are of one kind. -/
  kind_eq : p.kind = q.kind
  /-- They produce as many items in all. -/
  limit_eq : p.limit = q.limit
  /-- They claim to produce as many items. -/
  claimed_eq : p.claimed = q.claimed
  /-- They have produced as many items so far. -/
  position_eq : p.position = q.position
  /-- Their items are equal. -/
  items_equal : p.items.Equal q.items

variable {p q r : Producer}

/-- Producers are compared by their kinds, their numbers and the forms of their items. -/
theorem same_iff : p.same q ↔ p.kind = q.kind ∧ p.limit = q.limit ∧ p.claimed = q.claimed ∧
    p.position = q.position ∧ p.items.form = q.items.form := by
  simp only [same, Bool.and_eq_true, beq_iff_eq, Value.same_iff]
  tauto

/-- A producer of defined items is equal to those that agree with it. -/
theorem same_iff_agrees (hp : p.items.IsDefined) : p.same q ↔ p.Agrees q := by
  simp only [same, Bool.and_eq_true, beq_iff_eq, Value.same_iff_equal hp]
  constructor
  · rintro ⟨⟨⟨⟨hkind, hlimit⟩, hclaimed⟩, hitems⟩, hposition⟩
    exact ⟨hkind, hlimit, hclaimed, hposition, hitems⟩
  · rintro ⟨hkind, hlimit, hclaimed, hposition, hitems⟩
    exact ⟨⟨⟨⟨hkind, hlimit⟩, hclaimed⟩, hitems⟩, hposition⟩

/-- Equality of producers is symmetric. -/
theorem same_comm (p q : Producer) : p.same q = q.same p := by
  rw [Bool.eq_iff_iff, same_iff, same_iff]
  simp only [eq_comm]

/-- Equality of producers is transitive. -/
theorem same_trans (hpq : p.same q) (hqr : q.same r) : p.same r := by
  obtain ⟨hkind, hlimit, hclaimed, hposition, hform⟩ := same_iff.mp hpq
  obtain ⟨hkind', hlimit', hclaimed', hposition', hform'⟩ := same_iff.mp hqr
  exact same_iff.mpr ⟨hkind.trans hkind', hlimit.trans hlimit', hclaimed.trans hclaimed',
    hposition.trans hposition', hform.trans hform'⟩

namespace Session

variable {session : Session} {a b c : String}

/-- The answer to a question is that it is so, or that it is not, and nothing changes. -/
def Answers [Machine] (session : Session) (question : Request) (so : Bool) : Prop :=
  session.perform question = (session, .ok (.bool so))

/-- Whether two producers are equal is answered by comparing them. -/
theorem answers_equal_iff [Machine] (ha : session.find? a = some p) (hb : session.find? b = some q)
    {so : Bool} : session.Answers (.equal a b) so ↔ p.same q = so := by
  simp [Answers, Session.perform, Session.compare, Session.get, ha, hb, bind, Except.bind]

/-- Whether two producers differ is answered by comparing them. -/
theorem answers_differ_iff [Machine] (ha : session.find? a = some p) (hb : session.find? b = some q)
    {so : Bool} : session.Answers (.differ a b) so ↔ p.same q = !so := by
  simp [Answers, Session.perform, Session.compare, Session.get, ha, hb, bind, Except.bind]

/-- No producer is a value. -/
theorem answers_equalsValue [Machine] (ha : session.find? a = some p) (v : Value) :
    session.Answers (.act a (.observe (.equalsValue v))) false := by
  unfold Answers
  rw [perform_act ha]
  simp only [Producer.perform, observe, Registry.insert_of_find? ha]

/-- **Equality decides what can be seen.** Two producers, the first of them with defined items, are
equal exactly if they agree in all that can be seen of them, and otherwise the answer is that they
are not. Each producer is equal to itself, equality goes both ways and from one producer through
another to a third, two producers differ exactly if they are not equal, and no producer equals
a value. -/
theorem answers_equal_iff_agrees [Machine] (ha : session.find? a = some p)
    (hb : session.find? b = some q) (hc : session.find? c = some r) (hp : p.items.IsDefined) :
    (session.Answers (.equal a b) true ↔ p.Agrees q) ∧
    (session.Answers (.equal a b) false ↔ ¬ p.Agrees q) ∧
    (∀ so, session.Answers (.differ a b) so ↔ session.Answers (.equal a b) !so) ∧
    session.Answers (.equal a a) true ∧
    (session.Answers (.equal a b) true → session.Answers (.equal b a) true) ∧
    (session.Answers (.equal a b) true → session.Answers (.equal b c) true →
      session.Answers (.equal a c) true) ∧
    ∀ v, session.Answers (.act a (.observe (.equalsValue v))) false := by
  refine ⟨?_, ?_, fun so => ?_, ?_, fun hab => ?_, fun hab hbc => ?_, answers_equalsValue ha⟩
  · rw [answers_equal_iff ha hb, same_iff_agrees hp]
  · rw [answers_equal_iff ha hb, ← same_iff_agrees hp, Bool.not_eq_true]
  · rw [answers_differ_iff ha hb, answers_equal_iff ha hb]
  · exact (answers_equal_iff ha ha).mpr p.same_self
  · rw [answers_equal_iff ha hb] at hab
    rwa [answers_equal_iff hb ha, same_comm]
  · rw [answers_equal_iff ha hb] at hab
    rw [answers_equal_iff hb hc] at hbc
    exact (answers_equal_iff ha hc).mpr (same_trans hab hbc)

/-- Around 2^53, where floating point numbers have a gap: an integer, a floating point number and
again an integer are equal, and the next integer is not, although it would be rounded to them. -/
theorem answers_equal_iff_agrees_at_gap :
    let p : Producer := ⟨"Source", 3, 7, 1, .list [.int 9007199254740992, .tuple [.bool true]]⟩
    let q : Producer :=
      ⟨"Source", 3, 7, 1, .list [.float (.finite false 4503599627370496 1), .tuple [.int 1]]⟩
    let r : Producer := ⟨"Source", 3, 7, 1,
      .list [.int 9007199254740992, .tuple [.float (.finite false 4503599627370496 (-52))]]⟩
    let next : Producer :=
      ⟨"Source", 3, 7, 1, .list [.int 9007199254740993, .tuple [.bool true]]⟩
    let session : Session := ⟨[("p", p), ("q", q), ("r", r), ("next", next)]⟩
    p.Agrees q ∧ session.Answers (.equal "q" "p") true ∧ session.Answers (.equal "p" "r") true ∧
      ¬ next.Agrees q ∧ session.Answers (.differ "next" "q") true ∧
      session.Answers (.act "p" (.observe (.equalsValue (.list [])))) false := by
  intro p q r next session
  have hdefined (n : Int) : (Value.list [.int n, .tuple [.bool true]]).IsDefined :=
    .list (List.forall_mem_cons.mpr ⟨.number (.int n), List.forall_mem_singleton.mpr
      (.tuple (List.forall_mem_singleton.mpr (.number (.bool true))))⟩)
  have hp : session.find? "p" = some p := rfl
  have hq : session.find? "q" = some q := rfl
  have hr : session.find? "r" = some r := rfl
  have hnext : session.find? "next" = some next := rfl
  have hpq : session.Answers (.equal "p" "q") true :=
    (answers_equal_iff hp hq).mpr (by decide +kernel)
  have hqr : session.Answers (.equal "q" "r") true :=
    (answers_equal_iff hq hr).mpr (by decide +kernel)
  have hgap : session.Answers (.equal "next" "q") false :=
    (answers_equal_iff hnext hq).mpr (by decide +kernel)
  obtain ⟨hagrees, _, _, _, hback, hthrough, hvalue⟩ :=
    answers_equal_iff_agrees hp hq hr (hdefined _)
  obtain ⟨_, hdisagrees, hdiffer, _⟩ := answers_equal_iff_agrees hnext hq hr (hdefined _)
  exact ⟨hagrees.mp hpq, hback hpq, hthrough hpq hqr, hdisagrees.mp hgap,
    (hdiffer true).mpr hgap, hvalue (.list [])⟩

end Session

end Fixtures.Producer
