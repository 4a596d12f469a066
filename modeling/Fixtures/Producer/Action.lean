import Fixtures.Producer.Consumer

/-!
# Actions on a producer

What a client can do with one producer: look at it, take items from it, and change the list of
items, which is the client's to change. Its numbers can be read and not assigned to.
-/

namespace Fixtures.Producer

/-- What can be seen of a producer without taking an item. -/
inductive Observation where
  /-- The bounds on the number of items (`size_hint`): none below, and the claim above. -/
  | hint
  /-- The claim as a machine integer. -/
  | lengthHint
  /-- The number of items still to come. -/
  | remaining
  /-- One of the numbers. -/
  | fixed (number : Fixed)
  /-- The list of items. -/
  | items
  /-- Limit, claim, position and items together. -/
  | state
  /-- The text. -/
  | display
  /-- The kind. -/
  | kind
  /-- The truth value, which holds of every producer. -/
  | truth
  /-- Whether going through the producer goes through the producer itself. -/
  | isOwnIterator
  /-- The length, which producers do not have. -/
  | length
  /-- The hash, which producers do not have. -/
  | hash
  /-- Whether the producer equals a value, which none does. -/
  | equalsValue (v : Value)

/-- What a client does with a producer. -/
inductive Action where
  /-- Looks at it. -/
  | observe (observation : Observation)
  /-- Takes the next item. -/
  | next
  /-- Takes up to a number of items. -/
  | take (count : Nat)
  /-- Searches for an item that equals a value. -/
  | search (wanted : Value)
  /-- Gathers all items into a container. -/
  | collect (container : Container)
  /-- Gathers all items behind the members of a list. -/
  | collectBehind (front : Value)
  /-- Assigns to one of the numbers. -/
  | assignFixed (number : Fixed)
  /-- Puts another list, or any other value, in place of the list of items. -/
  | assignItems (items : Value)
  /-- Assigns to an attribute that nothing here depends on. -/
  | assignOther
  /-- Adds an item behind the others. -/
  | append (item : Value)
  /-- Puts an item in the place of another; negative places count from the end. -/
  | setItem (place : Int) (item : Value)
  /-- Takes an item out of the list; negative places count from the end. -/
  | pop (place : Int)
  /-- Takes all items out of the list. -/
  | clear

/-- One of the numbers. -/
def number (p : Producer) : Fixed → Nat
  | .limit => p.limit
  | .claimed => p.claimed
  | .position => p.position

/-- What an observation shows. -/
def observe (p : Producer) : Observation → Except Failure Value
  | .hint => .ok (.tuple [.int 0, .int p.claimed])
  | .lengthHint => p.lengthHint.map fun hint => .int hint
  | .remaining => .ok (.int p.remaining)
  | .fixed number => .ok (.int (p.number number))
  | .items => .ok p.items
  | .state => .ok (.list [.int p.limit, .int p.claimed, .int p.position, p.items])
  | .display => .ok (.text p.display)
  | .kind => .ok (.text p.kind)
  | .truth => .ok (.bool true)
  | .isOwnIterator => .ok (.bool true)
  | .length => .error (.noLength p.kind)
  | .hash => .error (.unhashable p.kind)
  | .equalsValue _ => .ok (.bool false)

/-- The place in a list that an integer names; negative integers count from the end. -/
def placeIn? (length : Nat) (place : Int) : Option Nat :=
  let place := if place < 0 then place + length else place
  if 0 ≤ place ∧ place < length then some place.toNat else none

/-- The producer with other items. -/
def withItems (p : Producer) (items : Value) : Producer :=
  { p with items := items }

/-- Adds an item behind the others. -/
def append (p : Producer) (item : Value) : Producer × Except Failure Value :=
  match p.items with
  | .list xs => (p.withItems (.list (xs ++ [item])), .ok .null)
  | other => (p, .error (.noOperation other.kindName "append"))

/-- Puts an item in the place of another. Where there are members the place is looked at before the
kind of their list. -/
def setItem (p : Producer) (place : Int) (item : Value) : Producer × Except Failure Value :=
  if p.items.members?.isSome ∧ ¬ Machine.Holds place then (p, .error .placeTooLarge)
  else match p.items with
  | .list xs =>
    match placeIn? xs.length place with
    | some i => (p.withItems (.list (xs.set i item)), .ok .null)
    | none => (p, .error .noPlaceToAssign)
  | other => (p, .error (.noAssignment other.kindName))

/-- Takes an item out of the list of items. -/
def pop (p : Producer) (place : Int) : Producer × Except Failure Value :=
  match p.items with
  | .list xs =>
    if ¬ Machine.Holds place then (p, .error .notMachineInteger)
    else if xs.isEmpty then (p, .error .popFromEmpty)
    else match placeIn? xs.length place with
      | some i => (p.withItems (.list (xs.eraseIdx i)), .ok (xs.getD i .null))
      | none => (p, .error .noPlaceToPop)
  | other => (p, .error (.noOperation other.kindName "pop"))

/-- Takes all items out of the list of items. -/
def clear (p : Producer) : Producer × Except Failure Value :=
  match p.items with
  | .list _ => (p.withItems (.list []), .ok .null)
  | other => (p, .error (.noOperation other.kindName "clear"))

/-- Does one action: the producer afterwards, and the answer. -/
def perform [Machine] (p : Producer) : Action → Producer × Except Failure Value
  | .observe observation => (p, p.observe observation)
  | .next =>
    match p.next with
    | .ok (item, p) => (p, .ok item)
    | .error failure => (p, .error failure)
  | .take count => (p.take count).map id (Except.map Value.list)
  | .search wanted => (p.search wanted).map id (Except.map Value.bool)
  | .collect container => p.collect container
  | .collectBehind front => p.collectBehind front
  | .assignFixed number => (p, .error (.readOnly number p.kind))
  | .assignItems items => (p.withItems items, .ok .null)
  | .assignOther => (p, .ok .null)
  | .append item => p.append item
  | .setItem place item => p.setItem place item
  | .pop place => p.pop place
  | .clear => p.clear

end Fixtures.Producer
