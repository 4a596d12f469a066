import Fixtures.Producer.Basic

/-!
# Consumers of a producer

The ways to take items from a producer: some number of them, a search, and gathering all that are
left into a container. Most containers first make room for as many items as are claimed, which can
fail before any item is taken. Every operation says which producer it leaves behind, also when it
fails: an item that is found, or refused, has been taken, and none behind it. An item that is not
met within one round of the cycle is not met at all.
-/

namespace Fixtures

variable [Machine]

/-- Makes room for as many items as are claimed. A byte array grows with its items instead. -/
def Container.reserve (container : Container) (p : Producer) : Except Producer.Failure Unit :=
  match container with
  | .byteArray => .ok ()
  | .bytes => do (Machine.reserveBytes (← p.lengthHint)).mapError .memory
  | .list | .tuple => do (Machine.reserve (← p.lengthHint)).mapError .memory

/-- Makes room for the items of a list and behind them for as many more as are claimed. Where both
together would be no machine integer no room is made, and the list grows with its items. -/
def Container.reserveBehind (length : Nat) (p : Producer) : Except Producer.Failure Unit := do
  let hint ← p.lengthHint
  if Machine.Holds (length + hint) then (Machine.reserve (length + hint)).mapError .memory
  else .ok ()

/-- The byte that an item is. -/
def Container.byteOf (container : Container) (item : Value) : Except Producer.Failure UInt8 :=
  match item.asInteger? with
  | none => .error (.notAnInteger item.kindName)
  | some n =>
    if 0 ≤ n ∧ n < 256 then .ok (UInt8.ofNat n.toNat) else .error (.byteOutOfRange container)

/-- The first item of a list that is no byte for a container, with the number of items before it. -/
def Container.firstRefused? (container : Container) (items : List Value) :
    Option (Nat × Producer.Failure) :=
  items.zipIdx.findSome? fun (item, place) =>
    match container.byteOf item with
    | .ok _ => none
    | .error failure => some (place, failure)

namespace Producer

/-- Takes up to `count` items. -/
def take (count : Nat) (p : Producer) : Producer × Except Failure (List Value) :=
  let count := min count p.remaining
  if count = 0 then (p, .ok [])
  else match p.cycle with
    | .error failure => (p, .error failure)
    | .ok c => (p.advance count, .ok (c.stretch p.position count))

/-- Takes all items that are left. -/
def drain (p : Producer) : Producer × Except Failure (List Value) :=
  p.take p.remaining

/-- Takes items until one equals a value, or all of them; says whether there was one. -/
def search (wanted : Value) (p : Producer) : Producer × Except Failure Bool :=
  if p.remaining = 0 then (p, .ok false)
  else match p.cycle with
    | .error failure => (p, .error failure)
    | .ok c =>
      match (c.round p.position p.remaining).findIdx? fun item => item.same wanted with
      | some before => (p.advance (before + 1), .ok true)
      | none => (p.advance p.remaining, .ok false)

/-- Takes all items that are left as the bytes of a container, or those up to the first that is
no byte. -/
def drainBytes (container : Container) (p : Producer) : Producer × Except Failure (List UInt8) :=
  if p.remaining = 0 then (p, .ok [])
  else match p.cycle with
    | .error failure => (p, .error failure)
    | .ok c =>
      match container.firstRefused? (c.round p.position p.remaining) with
      | some (before, failure) => (p.advance (before + 1), .error failure)
      | none =>
        (p.advance p.remaining, .ok ((c.stretch p.position p.remaining).filterMap fun item =>
          (container.byteOf item).toOption))

/-- Gathers all items that are left into a container. -/
def collect (container : Container) (p : Producer) : Producer × Except Failure Value :=
  match container.reserve p with
  | .error failure => (p, .error failure)
  | .ok () =>
    match container with
    | .list => p.drain.map id (Except.map Value.list)
    | .tuple => p.drain.map id (Except.map Value.tuple)
    | .bytes | .byteArray => (p.drainBytes container).map id (Except.map Value.bytes)

/-- Gathers all items that are left behind the members of a list. Only a list can be extended. -/
def collectBehind (front : Value) (p : Producer) : Producer × Except Failure Value :=
  match front with
  | .list front =>
    match Container.reserveBehind front.length p with
    | .error failure => (p, .error failure)
    | .ok () => p.drain.map id (Except.map fun rest => Value.list (front ++ rest))
  | other => (p, .error (.noOperation other.kindName "extend"))

end Producer

end Fixtures
