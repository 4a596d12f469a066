import Fixtures.Producer.Cycle
import Fixtures.Producer.Failure
import Fixtures.Value.Equality
import Fixtures.Value.Printer

/-!
# Producers

A producer hands out items one at a time: the members of its list in order, over and over, until
it has produced as many as its limit says. Beside that it makes a claim about how many items it
will produce, which need not be true and never changes what it produces. The list is the client's
to change, and any other value may be put in its place: one with members is gone through like a
list, and one without has nothing to hand out.
-/

namespace Fixtures

/-- A source of items that makes a claim about their number (`BadIterator`). -/
structure Producer where
  /-- The name of its kind. Producers of different kinds are never equal. -/
  kind : String
  /-- The number of items it produces in all. -/
  limit : Nat
  /-- The number of items it claims to produce. -/
  claimed : Nat
  /-- The number of items it has produced so far. -/
  position : Nat
  /-- The list of items that it repeats, or what a client has put in its place. -/
  items : Value
  deriving Inhabited

namespace Producer

/-- The counts of a new producer: the limit is checked first, then the claim. -/
def counts (limit claimed : Argument) : Except Failure (Nat × Nat) :=
  match Count.ofArgument limit with
  | .error refusal => .error (.badCount "limit" refusal)
  | .ok limit =>
    match Count.ofArgument claimed with
    | .error refusal => .error (.badCount "claimed" refusal)
    | .ok claimed => .ok (limit, claimed)

/-- A producer at its start. There has to be an item. -/
def start (kind : String) (limit claimed : Nat) (items : List Value) : Except Failure Producer :=
  if items.isEmpty then .error .noItems else .ok ⟨kind, limit, claimed, 0, .list items⟩

/-- A new producer of the members of a value (`BadIterator.__init__`). The counts are checked before
the items. -/
def ofValue (kind : String) (limit claimed : Argument) (items : Value) :
    Except Failure Producer := do
  let (limit, claimed) ← counts limit claimed
  match items.members? with
  | none => .error (.notIterable items.kindName)
  | some members => start kind limit claimed members

/-- There is no producer of an object of a kind that cannot be gone through. The counts are checked
before the items. -/
def ofObject (limit claimed : Argument) (kindName : String) : Except Failure Producer := do
  let _ ← counts limit claimed
  .error (.notIterable kindName)

/-- A second producer in the same state (`__copy__`). It is made and checked like a new one, and
then put at the same position. -/
def copy (p : Producer) : Except Failure Producer := do
  let fresh ← ofValue p.kind (.plain (.int p.limit)) (.plain (.int p.claimed)) p.items
  .ok { fresh with position := p.position }

/-- The number of items still to come (`remaining`). -/
def remaining (p : Producer) : Nat :=
  p.limit - p.position

/-- The producer after a number of items have been taken. -/
def advance (p : Producer) (count : Nat) : Producer :=
  { p with position := p.position + count }

@[simp] theorem advance_zero (p : Producer) : p.advance 0 = p := rfl

@[simp] theorem advance_advance (p : Producer) (m n : Nat) :
    (p.advance m).advance n = p.advance (m + n) := by
  simp [advance, Nat.add_assoc]

@[simp] theorem remaining_advance (p : Producer) (count : Nat) :
    (p.advance count).remaining = p.remaining - count := by
  simp [advance, remaining, Nat.sub_add_eq]

/-- The cycle that the items are taken from. -/
def cycle (p : Producer) : Except Failure Cycle :=
  match p.items.members? with
  | none => .error (.noLength p.items.kindName)
  | some members =>
    match Cycle.ofList? members with
    | none => .error .emptyCycle
    | some c => .ok c

/-- The next item, and the producer after it (`__next__`). -/
def next (p : Producer) : Except Failure (Value × Producer) :=
  if p.limit ≤ p.position then .error .exhausted
  else do
    let c ← p.cycle
    .ok (c.item p.position, p.advance 1)

/-- Taking items changes nothing about the cycle. -/
@[simp] theorem cycle_advance (p : Producer) (count : Nat) : (p.advance count).cycle = p.cycle :=
  rfl

/-- Where nothing is left there is no next item, whatever the items are. -/
theorem next_of_remaining_eq_zero {p : Producer} (h : p.remaining = 0) :
    p.next = .error .exhausted := by
  have hle : p.limit ≤ p.position := Nat.le_of_sub_eq_zero h
  simp [next, hle]

/-- Where something is left the next item is the one of the cycle at the position, unless there is
no cycle. -/
theorem next_of_remaining_pos {p : Producer} (h : 0 < p.remaining) :
    p.next = p.cycle.map fun c => (c.item p.position, p.advance 1) := by
  have hlt : ¬ p.limit ≤ p.position := Nat.not_le_of_lt (Nat.lt_of_sub_pos h)
  cases hc : p.cycle <;> simp [next, hlt, hc, Except.map, bind, Except.bind]

/-- The claim as a machine integer, as it is asked for through `__length_hint__`. -/
def lengthHint (p : Producer) : Except Failure Nat :=
  if Machine.Holds p.claimed then .ok p.claimed else .error .notMachineInteger

/-- Whether two producers are of one kind and have the same counts, the same position and equal
items (`__eq__`, which is derived from the fields). -/
def same (p q : Producer) : Bool :=
  p.kind == q.kind && p.limit == q.limit && p.claimed == q.claimed &&
    p.items.same q.items && p.position == q.position

/-- Every producer is equal to itself. -/
theorem same_self (p : Producer) : p.same p = true := by
  simp [same, Value.same_self]

/-- The characters of a producer's text, under a choice of the printable characters. -/
def chars (printable : Char → Bool) (p : Producer) : List Char :=
  p.kind.toList ++ "(limit=".toList ++ Value.intChars p.limit ++ ", claimed=".toList ++
    Value.intChars p.claimed ++ ", items=".toList ++ Value.chars printable p.items ++ [')']

/-- The text of a producer (`__repr__`), which shows its kind, its counts and its items. -/
def display (p : Producer) : String :=
  String.ofList (p.chars Text.isPrintable)

end Producer

end Fixtures
