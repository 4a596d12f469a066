import Fixtures.Registry
import Fixtures.Producer.Action

/-!
# Named producers

A session keeps producers under names. A producer can be made from a value or from another
producer, whose items it takes, and it can be copied, compared with another one, or acted on.
-/

namespace Fixtures.Producer

/-- Where the items of a new producer come from. -/
inductive Source where
  /-- The members of a value. -/
  | value (v : Value)
  /-- Nothing, because it is an object of some other kind, which cannot be gone through. -/
  | object (kindName : String)
  /-- The items that a producer of a name has left. -/
  | producer (name : String)

/-- A step of a session. -/
inductive Request where
  /-- A new producer under a name, in place of one that has the name already. -/
  | create (name kind : String) (limit claimed : Argument) (source : Source)
  /-- A copy under another name. -/
  | copy (name target : String)
  /-- Whether two producers are equal. -/
  | equal (name other : String)
  /-- Whether two producers differ. -/
  | differ (name other : String)
  /-- Whether two names stand for one producer, which only a name and itself do. -/
  | identical (name other : String)
  /-- An action on a producer. -/
  | act (name : String) (action : Action)

/-- Producers under names. -/
abbrev Session := Registry Producer

/-- The producer of a name. -/
def Session.get (session : Session) (name : String) : Except Failure Producer :=
  match session.find? name with
  | some p => .ok p
  | none => .error (.unknown name)

/-- Puts a producer under a name, unless there is none to put. -/
def Session.store (session : Session) (name : String) :
    Except Failure Producer → Session × Except Failure Value
  | .ok p => (session.insert name p, .ok .null)
  | .error failure => (session, .error failure)

/-- Makes a producer of the items that another one has left, which are gathered as a list. There
has to be such a producer before the counts are looked at. -/
def Session.createFrom [Machine] (session : Session) (name kind : String) (limit claimed : Argument)
    (sourceName : String) : Session × Except Failure Value :=
  match session.get sourceName with
  | .error failure => (session, .error failure)
  | .ok source =>
    match counts limit claimed with
    | .error failure => (session, .error failure)
    | .ok (limit, claimed) =>
      let (source, gathered) := source.collect .list
      let session : Session := session.insert sourceName source
      match gathered with
      | .error failure => (session, .error failure)
      | .ok items => session.store name (start kind limit claimed (items.members?.getD []))

/-- Makes a producer, unless the name of its kind cannot be one. -/
def Session.create [Machine] (session : Session) (name kind : String) (limit claimed : Argument)
    (source : Source) : Session × Except Failure Value :=
  if kind.toList.contains '\x00' then (session, .error .nulInKind)
  else match source with
    | .value v => session.store name (ofValue kind limit claimed v)
    | .object kindName => session.store name (ofObject limit claimed kindName)
    | .producer source => session.createFrom name kind limit claimed source

/-- What two producers have to do with each other. -/
def Session.compare (session : Session) (name other : String)
    (relation : Producer → Producer → Bool) : Session × Except Failure Value :=
  let answer := do
    let p ← session.get name
    let q ← session.get other
    .ok (.bool (relation p q))
  (session, answer)

/-- Does one step: the producers afterwards, and the answer. -/
def Session.perform [Machine] (session : Session) : Request → Session × Except Failure Value
  | .create name kind limit claimed source => session.create name kind limit claimed source
  | .copy name target => session.store target (session.get name >>= copy)
  | .equal name other => session.compare name other same
  | .differ name other => session.compare name other fun p q => !same p q
  | .identical name other => session.compare name other fun _ _ => name == other
  | .act name action =>
    match session.get name with
    | .error failure => (session, .error failure)
    | .ok p =>
      let (p, answer) := p.perform action
      (session.insert name p, answer)

/-- Does the steps in turn: the producers at the end, and the answers. -/
def Session.run [Machine] (session : Session) : List Request → Session × List (Except Failure Value)
  | [] => (session, [])
  | request :: rest =>
    let (session, answer) := session.perform request
    let (session, answers) := Session.run session rest
    (session, answer :: answers)

end Fixtures.Producer
