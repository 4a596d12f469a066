import Fixtures.Proofs.Producer.Lockstep
import Fixtures.Proofs.Value.Equality

/-!
# Equal producers cannot be told apart

Equal producers hold items that are equal and need not be identical: the integer one in place of
the truth value, a zero with a sign. Whatever is done to both, as long as it does not look at how
the items are written, they give equal answers or fail for the same reason, and are equal again.
What they hold is of one kind on both sides, as lists always are, so that they also fail alike where
a client has put something else in place of the list.
-/

namespace Fixtures

namespace Cycle

/-- Two cycles whose members have the same forms, one by one. -/
def Alike (c d : Cycle) : Prop :=
  c.members.toList.map Value.form = d.members.toList.map Value.form

/-- The form of an item is that of the member at the remainder of its place. -/
theorem getElem?_map_form (c : Cycle) (place : Nat) :
    (c.members.toList.map Value.form)[place % c.members.size]? = some (c.item place).form := by
  have hlt : place % c.members.size < c.members.size := Nat.mod_lt place c.size_pos
  rw [List.getElem?_map, Array.getElem?_toList, Array.getElem?_eq_getElem hlt]
  rfl

variable {c d : Cycle}

/-- Alike cycles are of one length. -/
theorem Alike.size_eq (h : c.Alike d) : c.members.size = d.members.size := by
  have hlength := congrArg List.length h
  rwa [List.length_map, List.length_map, Array.length_toList, Array.length_toList] at hlength

/-- Alike cycles have items of the same forms. -/
theorem Alike.form_item (h : c.Alike d) (place : Nat) :
    (c.item place).form = (d.item place).form := by
  have hc := c.getElem?_map_form place
  rw [h, h.size_eq, d.getElem?_map_form] at hc
  exact (Option.some.inj hc).symm

/-- Stretches of alike cycles have the same forms. -/
theorem Alike.stretch (h : c.Alike d) (start count : Nat) :
    (c.stretch start count).map Value.form = (d.stretch start count).map Value.form := by
  simp only [Cycle.stretch, List.map_map]
  exact List.map_congr_left fun j _ => h.form_item (start + j)

/-- Rounds of alike cycles have the same forms. -/
theorem Alike.round (h : c.Alike d) (start count : Nat) :
    (c.round start count).map Value.form = (d.round start count).map Value.form := by
  rw [Cycle.round, Cycle.round, h.size_eq]
  exact h.stretch start _

end Cycle

namespace Producer

/-- Two producers are equal, and what they go through is of one kind. -/
structure Twins (p q : Producer) : Prop where
  /-- They are equal. -/
  same : p.same q
  /-- Their items are of one kind, as two lists are. -/
  kindName_eq : p.items.kindName = q.items.kindName

/-- Every producer is its own twin. -/
theorem twins_self (p : Producer) : p.Twins p :=
  ⟨p.same_self, rfl⟩

/-- Only the items have to be changed. -/
theorem Twins.exists_withItems {p q : Producer} (h : p.Twins q) :
    ∃ items, q = p.withItems items ∧ p.items.form = items.form ∧
      p.items.kindName = items.kindName := by
  obtain ⟨hsame, hkind⟩ := h
  simp only [Producer.same, Bool.and_eq_true, beq_iff_eq, Value.same_iff] at hsame
  obtain ⟨⟨⟨⟨hk, hlimit⟩, hclaimed⟩, hitems⟩, hposition⟩ := hsame
  refine ⟨q.items, ?_, hitems, hkind⟩
  obtain ⟨kind, limit, claimed, position, items⟩ := q
  simp only at hk hlimit hclaimed hposition
  rw [withItems, hk, hlimit, hclaimed, hposition]

/-- Changing items for equal ones of their kind makes a twin. -/
theorem twins_withItems (p : Producer) {v w : Value} (hform : v.form = w.form)
    (hkind : v.kindName = w.kindName) : (p.withItems v).Twins (p.withItems w) := by
  constructor
  · simp [Producer.same, withItems, Value.same_iff, hform]
  · exact hkind

/-- Items that are taken from twins leave twins behind. -/
theorem Twins.advance {p q : Producer} (h : p.Twins q) (count : Nat) :
    (p.advance count).Twins (q.advance count) := by
  obtain ⟨items, rfl, hform, hkind⟩ := h.exists_withItems
  have hadvance : (p.withItems items).advance count = (p.advance count).withItems items := rfl
  rw [hadvance]
  exact twins_withItems (p.advance count) hform hkind

/-- Two operations leave twins behind, and have results that look the same or fail for the same
reason. -/
structure InTune {α β : Type} (view : α → β) (first second : Producer × Except Failure α) :
    Prop where
  /-- The producers are twins. -/
  twins : first.1.Twins second.1
  /-- The results look the same. -/
  view_eq : first.2.map view = second.2.map view

/-- What is made of results that look the same. -/
theorem InTune.map {α β α' β' : Type} {view : α → β} {view' : α' → β'} {f : α → α'}
    {first second : Producer × Except Failure α} (h : InTune view first second)
    (hf : ∀ a b, view a = view b → view' (f a) = view' (f b)) :
    InTune view' (first.map id (Except.map f)) (second.map id (Except.map f)) := by
  obtain ⟨p, a⟩ := first
  obtain ⟨q, b⟩ := second
  refine ⟨h.twins, ?_⟩
  have hview := h.view_eq
  cases a with
  | error failure =>
    cases b with
    | error other => exact congrArg Except.error (Except.error.inj hview)
    | ok b => cases hview
  | ok a =>
    cases b with
    | error other => cases hview
    | ok b => exact congrArg Except.ok (hf a b (Except.ok.inj hview))

section Operations

variable {p q : Producer}

/-- Twins have as many items left. -/
theorem Twins.remaining_eq (h : p.Twins q) : p.remaining = q.remaining := by
  obtain ⟨items, rfl, _⟩ := h.exists_withItems
  rfl

/-- Twins stand at the same position. -/
theorem Twins.position_eq (h : p.Twins q) : p.position = q.position := by
  obtain ⟨items, rfl, _⟩ := h.exists_withItems
  rfl

/-- The items of twins have the same form. -/
theorem Twins.form_eq (h : p.Twins q) : p.items.form = q.items.form := by
  obtain ⟨items, rfl, hform, _⟩ := h.exists_withItems
  exact hform

/-- Twins go through alike cycles, or fail to do so for the same reason. -/
theorem Twins.cycle (h : p.Twins q) :
    (∃ failure, p.cycle = .error failure ∧ q.cycle = .error failure) ∨
      ∃ c d, p.cycle = .ok c ∧ q.cycle = .ok d ∧ c.Alike d := by
  have hmembers := Value.map_members?_of_form_eq h.form_eq
  unfold Producer.cycle
  cases hp : p.items.members? with
  | none =>
    rw [hp, Option.map_none] at hmembers
    rw [Option.map_eq_none_iff.mp hmembers.symm, h.kindName_eq]
    exact Or.inl ⟨_, rfl, rfl⟩
  | some xs =>
    rw [hp, Option.map_some] at hmembers
    obtain ⟨ys, hq, hforms⟩ := Option.map_eq_some_iff.mp hmembers.symm
    have hlength : ys.length = xs.length := by
      have hlengths := congrArg List.length hforms
      rwa [List.length_map, List.length_map] at hlengths
    simp only [hq, Cycle.ofList?, List.size_toArray, hlength]
    by_cases hpos : 0 < xs.length
    · simp only [dif_pos hpos]
      exact Or.inr ⟨_, _, rfl, rfl, hforms.symm⟩
    · simp only [dif_neg hpos]
      exact Or.inl ⟨_, rfl, rfl⟩

/-- Twins fail for one reason. -/
theorem Twins.inTune_error (h : p.Twins q) {α β : Type} (view : α → β) (failure : Failure) :
    InTune view (p, .error failure) (q, .error failure) :=
  ⟨h, rfl⟩

/-- Twins hand out equal items. -/
theorem Twins.take (h : p.Twins q) (count : Nat) :
    InTune (List.map Value.form) (p.take count) (q.take count) := by
  unfold Producer.take
  rw [h.remaining_eq]
  by_cases hzero : min count q.remaining = 0
  · simp only [hzero, if_true]
    exact ⟨h, rfl⟩
  · simp only [hzero, if_false]
    rcases h.cycle with ⟨failure, hp, hq⟩ | ⟨c, d, hp, hq, halike⟩
    · simp only [hp, hq]
      exact h.inTune_error _ failure
    · simp only [hp, hq, h.position_eq]
      exact ⟨h.advance _, congrArg Except.ok (halike.stretch _ _)⟩

/-- Twins hand out the same next item. -/
theorem Twins.next [Machine] (h : p.Twins q) :
    InTune Value.form (p.perform .next) (q.perform .next) := by
  unfold Producer.perform
  rcases Nat.eq_zero_or_pos p.remaining with hzero | hpos
  · rw [next_of_remaining_eq_zero hzero, next_of_remaining_eq_zero (h.remaining_eq ▸ hzero)]
    exact h.inTune_error _ _
  · rw [next_of_remaining_pos hpos, next_of_remaining_pos (h.remaining_eq ▸ hpos)]
    rcases h.cycle with ⟨failure, hp, hq⟩ | ⟨c, d, hp, hq, halike⟩
    · simp only [hp, hq]
      exact h.inTune_error _ failure
    · simp only [hp, hq, h.position_eq]
      exact ⟨h.advance 1, congrArg Except.ok (halike.form_item _)⟩

/-- A search stops at the same place in twins. -/
theorem Twins.search (h : p.Twins q) (wanted : Value) :
    InTune id (p.search wanted) (q.search wanted) := by
  unfold Producer.search
  rw [h.remaining_eq]
  by_cases hzero : q.remaining = 0
  · simp only [hzero, if_true]
    exact ⟨h, rfl⟩
  · simp only [hzero, if_false]
    rcases h.cycle with ⟨failure, hp, hq⟩ | ⟨c, d, hp, hq, halike⟩
    · simp only [hp, hq]
      exact h.inTune_error _ failure
    · have hplace := Value.findIdx?_same_congr (halike.round q.position q.remaining) wanted
      simp only [hp, hq, h.position_eq, hplace]
      cases (d.round q.position q.remaining).findIdx? fun item => item.same wanted with
      | none => exact ⟨h.advance _, rfl⟩
      | some before => exact ⟨h.advance _, rfl⟩

/-- Room is made alike for the claims of twins. -/
theorem Twins.reserve_eq [Machine] (h : p.Twins q) (container : Container) :
    container.reserve p = container.reserve q := by
  obtain ⟨items, rfl, _⟩ := h.exists_withItems
  cases container <;> rfl

/-- Room is made alike behind a list. -/
theorem Twins.reserveBehind_eq [Machine] (h : p.Twins q) (length : Nat) :
    Container.reserveBehind length p = Container.reserveBehind length q := by
  obtain ⟨items, rfl, _⟩ := h.exists_withItems
  rfl

/-- Twins fill equal lists. -/
theorem Twins.collect_list [Machine] (h : p.Twins q) :
    InTune Value.form (p.collect .list) (q.collect .list) := by
  unfold Producer.collect
  rw [h.reserve_eq]
  cases Container.list.reserve q with
  | error failure => exact h.inTune_error _ failure
  | ok =>
    unfold Producer.drain
    rw [h.remaining_eq]
    exact (h.take q.remaining).map fun xs ys hforms => by simp [hforms]

/-- Twins fill equal tuples. -/
theorem Twins.collect_tuple [Machine] (h : p.Twins q) :
    InTune Value.form (p.collect .tuple) (q.collect .tuple) := by
  unfold Producer.collect
  rw [h.reserve_eq]
  cases Container.tuple.reserve q with
  | error failure => exact h.inTune_error _ failure
  | ok =>
    unfold Producer.drain
    rw [h.remaining_eq]
    exact (h.take q.remaining).map fun xs ys hforms => by simp [hforms]

/-- Twins add equal items behind the members of a list. -/
theorem Twins.collectBehind [Machine] (h : p.Twins q) (front : Value) :
    InTune Value.form (p.collectBehind front) (q.collectBehind front) := by
  cases front with
  | list front =>
    unfold Producer.collectBehind
    simp only [h.reserveBehind_eq]
    cases Container.reserveBehind front.length q with
    | error failure => exact h.inTune_error _ failure
    | ok =>
      unfold Producer.drain
      rw [h.remaining_eq]
      exact (h.take q.remaining).map fun xs ys hforms => by simp [hforms]
  | _ => exact h.inTune_error _ _

/-- Twins go through lists with the same forms, or neither goes through a list. -/
theorem Twins.lists (h : p.Twins q) :
    (∃ xs ys, p.items = .list xs ∧ q.items = .list ys ∧
        xs.map Value.form = ys.map Value.form) ∨
      (∀ xs, p.items ≠ .list xs) ∧ ∀ ys, q.items ≠ .list ys := by
  by_cases hlist : ∃ xs, p.items = .list xs
  · obtain ⟨xs, hp⟩ := hlist
    have hform := h.form_eq
    rw [hp, Value.form_list] at hform
    obtain ⟨ys, hq, hforms⟩ := Value.exists_list_of_form_eq hform.symm
    exact Or.inl ⟨xs, ys, hp, hq, hforms.symm⟩
  · push Not at hlist
    refine Or.inr ⟨hlist, ?_⟩
    intro ys hq
    have hform := h.form_eq
    rw [hq, Value.form_list] at hform
    obtain ⟨xs, hp, _⟩ := Value.exists_list_of_form_eq hform
    exact hlist xs hp

/-- Twins whose items are replaced by equal ones of their kind are twins. -/
theorem Twins.withItems (h : p.Twins q) {v w : Value} (hform : v.form = w.form)
    (hkind : v.kindName = w.kindName) : (p.withItems v).Twins (q.withItems w) := by
  obtain ⟨items, rfl, _⟩ := h.exists_withItems
  exact twins_withItems p hform hkind

/-- Twins whose lists are replaced by lists of the same forms are twins. -/
theorem Twins.withList (h : p.Twins q) {xs ys : List Value}
    (hforms : xs.map Value.form = ys.map Value.form) :
    (p.withItems (.list xs)).Twins (q.withItems (.list ys)) := by
  apply h.withItems
  · rw [Value.form_list, Value.form_list, hforms]
  · rfl

/-- Twins may be added the same item. -/
theorem Twins.append (h : p.Twins q) (item : Value) :
    InTune Value.form (p.append item) (q.append item) := by
  unfold Producer.append
  rcases h.lists with ⟨xs, ys, hp, hq, hforms⟩ | ⟨hp, hq⟩
  · simp only [hp, hq]
    exact ⟨h.withList (by simp [hforms]), rfl⟩
  · split
    · exact absurd ‹_› (hp _)
    · rw [h.kindName_eq]
      exact h.inTune_error _ _

/-- Lists of the same forms have as many members. -/
theorem length_eq_of_map_form_eq {xs ys : List Value}
    (h : xs.map Value.form = ys.map Value.form) : xs.length = ys.length := by
  have hlength := congrArg List.length h
  rwa [List.length_map, List.length_map] at hlength

/-- The same item may be put in the same place of twins. -/
theorem Twins.setItem (h : p.Twins q) (place : Int) (item : Value) :
    InTune Value.form (p.setItem place item) (q.setItem place item) := by
  have hmembers : p.items.members?.isSome = q.items.members?.isSome := by
    have hforms := congrArg Option.isSome (Value.map_members?_of_form_eq h.form_eq)
    rwa [Option.isSome_map, Option.isSome_map] at hforms
  unfold Producer.setItem
  rw [hmembers]
  split
  · exact h.inTune_error _ _
  · rcases h.lists with ⟨xs, ys, hp, hq, hforms⟩ | ⟨hp, hq⟩
    · simp only [hp, hq, length_eq_of_map_form_eq hforms]
      cases placeIn? ys.length place with
      | none => exact h.inTune_error _ _
      | some i => exact ⟨h.withList (by simp [List.map_set, hforms]), rfl⟩
    · split
      · exact absurd ‹_› (hp _)
      · rw [h.kindName_eq]
        exact h.inTune_error _ _

/-- What is taken out of the same place of twins is equal. -/
theorem Twins.pop (h : p.Twins q) (place : Int) :
    InTune Value.form (p.pop place) (q.pop place) := by
  unfold Producer.pop
  rcases h.lists with ⟨xs, ys, hp, hq, hforms⟩ | ⟨hp, hq⟩
  · have hlength := length_eq_of_map_form_eq hforms
    have hempty : xs.isEmpty = ys.isEmpty := by
      rw [← List.isEmpty_map, hforms, List.isEmpty_map]
    simp only [hp, hq, hempty, hlength]
    split
    · exact h.inTune_error _ _
    · split
      · exact h.inTune_error _ _
      · cases placeIn? ys.length place with
        | none => exact h.inTune_error _ _
        | some i =>
          have hitem : (xs.getD i .null).form = (ys.getD i .null).form := by
            rw [← List.getD_map xs .null Value.form, hforms, List.getD_map]
          have hrest : (xs.eraseIdx i).map Value.form = (ys.eraseIdx i).map Value.form := by
            rw [← List.eraseIdx_map, hforms, List.eraseIdx_map]
          exact ⟨h.withList hrest, congrArg Except.ok hitem⟩
  · split
    · exact absurd ‹_› (hp _)
    · rw [h.kindName_eq]
      exact h.inTune_error _ _

/-- Twins may be emptied. -/
theorem Twins.clear (h : p.Twins q) : InTune Value.form p.clear q.clear := by
  unfold Producer.clear
  rcases h.lists with ⟨xs, ys, hp, hq, hforms⟩ | ⟨hp, hq⟩
  · simp only [hp, hq]
    exact ⟨h.withList rfl, rfl⟩
  · split
    · exact absurd ‹_› (hp _)
    · rw [h.kindName_eq]
      exact h.inTune_error _ _

/-- What can be seen of twins without looking at how the items are written. -/
theorem Twins.observe (h : p.Twins q) {observation : Observation}
    (hdisplay : observation ≠ .display) :
    (p.observe observation).map Value.form = (q.observe observation).map Value.form := by
  obtain ⟨items, rfl, hform, _⟩ := h.exists_withItems
  cases observation with
  | display => exact absurd rfl hdisplay
  | items => exact congrArg Except.ok hform
  | state =>
    simp only [Producer.observe, Producer.withItems, Except.map, Value.form_list, List.map_cons,
      hform]
  | _ => rfl

end Operations

/-- The actions that tell equal producers apart: one shows how the items are written, and bytes can
be made of integers but not of the floating point numbers that equal them. -/
def Action.TellsApart : Action → Prop
  | .observe .display | .collect .bytes | .collect .byteArray => True
  | _ => False

/-- **An action on twins.** The answers are equal, and the producers are twins again. -/
theorem Twins.perform [Machine] {p q : Producer} (h : p.Twins q) {action : Action}
    (hhides : ¬ action.TellsApart) :
    InTune Value.form (p.perform action) (q.perform action) := by
  cases action with
  | observe observation =>
    have hdisplay : observation ≠ .display := by
      rintro rfl
      exact hhides trivial
    exact ⟨h, h.observe hdisplay⟩
  | next => exact h.next
  | take count => exact (h.take count).map fun xs ys hforms => by simp [hforms]
  | search wanted =>
    exact (h.search wanted).map fun found other heq =>
      congrArg (fun found => (Value.bool found).form) heq
  | collect container =>
    cases container with
    | list => exact h.collect_list
    | tuple => exact h.collect_tuple
    | bytes => exact absurd trivial hhides
    | byteArray => exact absurd trivial hhides
  | collectBehind front => exact h.collectBehind front
  | assignFixed number =>
    obtain ⟨items, rfl, _⟩ := h.exists_withItems
    exact h.inTune_error _ _
  | assignItems items => exact ⟨h.withItems rfl rfl, rfl⟩
  | assignOther => exact ⟨h, rfl⟩
  | append item => exact h.append item
  | setItem place item => exact h.setItem place item
  | pop place => exact h.pop place
  | clear => exact h.clear

/-- Two lists of the same forms are the start of twins, or of none. -/
theorem alike_start (kind : String) (limit claimed : Nat) {xs ys : List Value}
    (hforms : xs.map Value.form = ys.map Value.form) :
    Alike Twins (start kind limit claimed xs) (start kind limit claimed ys) := by
  have hempty : xs.isEmpty = ys.isEmpty := by
    rw [← List.isEmpty_map, hforms, List.isEmpty_map]
  unfold start
  rw [hempty]
  split
  · rfl
  · exact (twins_self ⟨kind, limit, claimed, 0, .null⟩).withList hforms

/-- Twins have copies that are twins, or cannot be copied. -/
theorem Twins.copy {p q : Producer} (h : p.Twins q) : Alike Twins p.copy q.copy := by
  have hmembers := Value.map_members?_of_form_eq h.form_eq
  rw [copy_eq, copy_eq]
  cases hp : p.items.members? with
  | none =>
    rw [hp, Option.map_none] at hmembers
    rw [Option.map_eq_none_iff.mp hmembers.symm]
    exact congrArg Failure.notIterable h.kindName_eq
  | some xs =>
    rw [hp, Option.map_some] at hmembers
    obtain ⟨ys, hq, hforms⟩ := Option.map_eq_some_iff.mp hmembers.symm
    rw [hq]
    cases xs with
    | nil =>
      obtain rfl : ys = [] := List.map_eq_nil_iff.mp hforms
      rfl
    | cons x xs =>
      obtain ⟨y, ys, rfl, _⟩ := List.map_eq_cons_iff.mp hforms
      exact h.withList hforms.symm

/-- Twins compare alike. -/
theorem Twins.same_congr {p q p' q' : Producer} (h : p.Twins q) (h' : p'.Twins q') :
    p.same p' = q.same q' := by
  obtain ⟨items, rfl, hform, _⟩ := h.exists_withItems
  obtain ⟨items', rfl, hform', _⟩ := h'.exists_withItems
  have hitems := Value.same_congr hform hform'
  simp only [Producer.same, Producer.withItems, hitems]

/-- The steps that tell equal producers apart. -/
def Request.TellsApart : Request → Prop
  | .act _ action => action.TellsApart
  | _ => False

/-- Two answers are equal values, or the same failure. -/
def SameAnswer : Except Failure Value → Except Failure Value → Prop
  | .ok v, .ok w => v.same w
  | .error failure, .error other => failure = other
  | _, _ => False

/-- Answers are the same if they look the same. -/
theorem sameAnswer_of_view_eq {answer other : Except Failure Value}
    (h : answer.map Value.form = other.map Value.form) : SameAnswer answer other := by
  cases answer with
  | error failure =>
    cases other with
    | error reason => exact Except.error.inj h
    | ok w => cases h
  | ok v =>
    cases other with
    | error reason => cases h
    | ok w => exact (Value.same_iff v w).mpr (Except.ok.inj h)

namespace Session

variable {on : String → Prop} {s t : Session}

/-- Two steps have the same answer and leave twins. -/
def TwinStep (on : String → Prop) (first second : Session × Except Failure Value) : Prop :=
  SameAnswer first.2 second.2 ∧ Related Twins on first.1 second.1

/-- Steps in lockstep have the same answer. -/
theorem InStep.twinStep {first second : Session × Except Failure Value}
    (h : InStep Twins on first second) : TwinStep on first second := by
  obtain ⟨hanswer, hrest⟩ := h
  exact ⟨sameAnswer_of_view_eq (by rw [hanswer]), hrest⟩

/-- Acting on twins. -/
theorem Related.perform_act_twins [Machine] (h : Related Twins on s t) {name : String}
    (hname : on name) {action : Action} (hhides : ¬ action.TellsApart) :
    TwinStep on (s.perform (.act name action)) (t.perform (.act name action)) := by
  rcases h.get hname with ⟨failure, hs, ht⟩ | ⟨p, q, hs, ht, _, _, hpq⟩
  · simp only [Session.perform, hs, ht]
    exact ⟨rfl, h⟩
  · obtain ⟨hrest, hview⟩ := hpq.perform hhides
    rw [Session.perform_act hs, Session.perform_act ht]
    exact ⟨sameAnswer_of_view_eq hview, h.insert hrest name⟩

/-- Making a producer of what twins have left. -/
theorem Related.createFrom_twins [Machine] (h : Related Twins on s t) (name kind : String)
    (limit claimed : Argument) {source : String} (hsource : on source) :
    InStep Twins on (s.createFrom name kind limit claimed source)
      (t.createFrom name kind limit claimed source) := by
  unfold Session.createFrom
  rcases h.get hsource with ⟨failure, hs, ht⟩ | ⟨p, q, _, _, hs, ht, hpq⟩
  · simp only [hs, ht]
    exact ⟨rfl, h⟩
  · simp only [hs, ht]
    cases counts limit claimed with
    | error failure => exact ⟨rfl, h⟩
    | ok numbers =>
      obtain ⟨hrest, hview⟩ := hpq.collect_list
      -- The source has been drained by now, even if nothing is made of its items.
      have hdrained : Related Twins on (s.insert source (p.collect .list).1)
          (t.insert source (q.collect .list).1) := h.insert hrest source
      cases hp : (p.collect .list).2 with
      | error failure =>
        cases hq : (q.collect .list).2 with
        | error other =>
          rw [hp, hq] at hview
          simp only [Except.error.inj hview]
          exact ⟨rfl, hdrained⟩
        | ok w =>
          rw [hp, hq] at hview
          cases hview
      | ok v =>
        cases hq : (q.collect .list).2 with
        | error other =>
          rw [hp, hq] at hview
          cases hview
        | ok w =>
          rw [hp, hq] at hview
          have hmembers := Value.map_members?_of_form_eq (Except.ok.inj hview)
          have hforms : (v.members?.getD []).map Value.form =
              (w.members?.getD []).map Value.form := by
            have hgetD (u : Value) : (u.members?.getD []).map Value.form =
                (u.members?.map (List.map Value.form)).getD [] := by
              cases u.members? <;> rfl
            rw [hgetD, hgetD, hmembers]
          exact hdrained.store (alike_start kind numbers.1 numbers.2 hforms) name

/-- **A step on twins.** Sessions that hold twins give equal answers, and hold twins afterwards. -/
theorem Related.perform_twins [Machine] (h : Related Twins on s t) {request : Request}
    (hnames : ∀ name ∈ request.names, on name) (hhides : ¬ request.TellsApart) :
    TwinStep on (s.perform request) (t.perform request) := by
  cases request with
  | create name kind limit claimed source =>
    simp only [Session.perform, Session.create]
    split
    · exact ⟨rfl, h⟩
    · cases source with
      | value v => exact (h.store (alike_self twins_self _) name).twinStep
      | object kindName => exact (h.store (alike_self twins_self _) name).twinStep
      | producer source =>
        exact (h.createFrom_twins name kind limit claimed
          (hnames source (by simp [Request.names]))).twinStep
  | act name action => exact h.perform_act_twins (hnames name (by simp [Request.names])) hhides
  | copy name target => exact (h.perform twins_self hnames fun _ _ hpq => hpq.copy).twinStep
  | equal name other =>
    exact (h.perform twins_self hnames fun _ _ _ _ hpq hpq' => hpq.same_congr hpq').twinStep
  | differ name other =>
    exact (h.perform twins_self hnames fun _ _ _ _ hpq hpq' => hpq.same_congr hpq').twinStep
  | identical name other => exact (h.perform twins_self hnames trivial).twinStep

/-- What holds of one step on twins holds of a whole run. -/
theorem Related.run_twins [Machine] (h : Related Twins on s t) {requests : List Request}
    (hnames : ∀ request ∈ requests, ∀ name ∈ request.names, on name)
    (hhides : ∀ request ∈ requests, ¬ request.TellsApart) :
    List.Forall₂ SameAnswer (s.run requests).2 (t.run requests).2 ∧
      Related Twins on (s.run requests).1 (t.run requests).1 := by
  induction requests generalizing s t with
  | nil => exact ⟨.nil, h⟩
  | cons request rest ih =>
    simp only [List.mem_cons, forall_eq_or_imp] at hnames hhides
    obtain ⟨hanswer, hstep⟩ := h.perform_twins hnames.1 hhides.1
    obtain ⟨hanswers, hrun⟩ := ih hstep hnames.2 hhides.2
    exact ⟨.cons hanswer hanswers, hrun⟩

/-- **Equality is a bisimulation.** Put equal producers in the same place of a session and go on
with the same steps: each answer equals its counterpart or is the same failure, and under every name
there are equal producers again, copies and what is made of what they have left included. Only how
the items are written must not be looked at. Two lists are always of one kind; where something else
has been put in place of a list, its kind is told by failures. -/
theorem run_of_same [Machine] {p q : Producer} (hsame : p.same q)
    (hkind : p.items.kindName = q.items.kindName) (session : Session) (name : String)
    {requests : List Request} (hhides : ∀ request ∈ requests, ¬ request.TellsApart) :
    let ours := Session.run (session.insert name p) requests
    let theirs := Session.run (session.insert name q) requests
    List.Forall₂ SameAnswer ours.2 theirs.2 ∧
      ∀ other, Option.Rel Twins (ours.1.find? other) (theirs.1.find? other) := by
  intro ours theirs
  have hstart : Related Twins (fun _ => True) (session.insert name p) (session.insert name q) :=
    (related_self twins_self session).insert ⟨hsame, hkind⟩ name
  obtain ⟨hanswers, hrest⟩ := hstart.run_twins (fun _ _ _ _ => trivial) hhides
  exact ⟨hanswers, fun other => hrest other trivial⟩

/-- One list holds the integer one and a zero below zero, the other one the truth value and the
integer zero; both are searched, copied, edited from the end, and emptied. -/
theorem run_of_same_numbers :
    let one : Value := .float (.finite false 1 0)
    let p : Producer := ⟨"Source", 7, 3, 1, .list [.int 1, .float (.finite true 0 0), .list [one]]⟩
    let q : Producer := ⟨"Source", 7, 3, 1, .list [.bool true, .int 0, .list [.int 1]]⟩
    let requests : List Request :=
      [.act "source" (.search one), .copy "source" "copy", .act "copy" (.setItem (-1) .null),
        .act "source" (.pop (-3)), .act "source" (.take 9), .act "copy" .next,
        .act "source" .clear, .act "source" .next]
    List.Forall₂ SameAnswer (Session.run (Registry.empty.insert "source" p) requests).2
      (Session.run (Registry.empty.insert "source" q) requests).2 := by
  intro one p q requests
  have hsame : p.same q := by
    decide
  have hhides : ∀ request ∈ requests, ¬ request.TellsApart := by
    simp [requests, Request.TellsApart, Action.TellsApart]
  exact (run_of_same hsame rfl .empty "source" hhides).1

end Session

end Producer

end Fixtures
