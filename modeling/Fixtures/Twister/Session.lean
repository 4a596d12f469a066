import Fixtures.Machine
import Fixtures.Registry
import Fixtures.SeededBytes
import Fixtures.Text.Quoted

/-!
# Named generators

A session keeps generators under names. Every generator starts afresh with the fixed seed, a step
touches only the generator that it names. A step that fails draws nothing, with one exception: the
members of a value that is no list are seen to have fixed places only when they are to change
places, and by then one draw has been made.
-/

namespace Fixtures.Twister

/-- The integers that a draw from a range chooses among. -/
inductive Span where
  /-- From zero up to below an end. -/
  | upTo (stop : Int)
  /-- From a start up to below an end. -/
  | between (start stop : Int)
  /-- From a start in equal steps, upwards or downwards, to before an end. -/
  | stepping (start stop step : Int)
  deriving DecidableEq

/-- Why a draw is not made. -/
inductive Failure where
  /-- A number of bits or bytes is below zero. -/
  | negativeBits
  /-- More bits are wanted than a machine integer can count. -/
  | tooManyBits
  /-- A range holds no integer. -/
  | emptyRange
  /-- An interval holds no integer; its ends and its width. -/
  | emptyInterval (start stop width : Int)
  /-- The steps of a range have no length. -/
  | zeroStep
  /-- There is nothing to choose. -/
  | nothingToChoose
  /-- A value without members has no length. -/
  | noLength (kindName : String)
  /-- The members of a value that is no list cannot change places. -/
  | noAssignment (kindName : String)
  /-- Bytes that do not depend on any generator were not made. -/
  | bytes (failure : SeededBytes.Failure)
  /-- No output of the generator would ever be accepted. -/
  | endless
  /-- No generator has the name. -/
  | unknown (name : String)
  deriving DecidableEq

/-- The message of a failure. -/
def Failure.message : Failure → String
  | .negativeBits => "number of bits must be non-negative"
  | .tooManyBits => "Python int too large to convert to C int"
  | .emptyRange => "empty range for randrange()"
  | .emptyInterval start stop width =>
    "empty range for randrange() (" ++ toString start ++ ", " ++ toString stop ++ ", "
      ++ toString width ++ ")"
  | .zeroStep => "zero step for randrange()"
  | .nothingToChoose => "Cannot choose from an empty sequence"
  | .noLength kindName => "object of type '" ++ kindName ++ "' has no len()"
  | .noAssignment kindName => "'" ++ kindName ++ "' object does not support item assignment"
  | .bytes failure => failure.message
  | .endless => "no output would ever be accepted"
  | .unknown name => Text.Quoted.quote name

/-- The first integer of a span, the distance between its integers, and how many there are. -/
structure Span.Steps where
  /-- The first integer. -/
  start : Int
  /-- The distance from one integer to the next. -/
  step : Int
  /-- The number of integers, which is positive. -/
  count : Nat

/-- The integers from a start up to below an end, or why there are none. -/
def Span.Steps.between (start stop : Int) : Except Failure Span.Steps :=
  let width := stop - start
  if 0 < width then .ok ⟨start, 1, width.toNat⟩ else .error (.emptyInterval start stop width)

/-- The integers of a span, or why there are none. -/
def Span.steps : Span → Except Failure Span.Steps
  | .upTo stop => if 0 < stop then .ok ⟨0, 1, stop.toNat⟩ else .error .emptyRange
  | .between start stop => Span.Steps.between start stop
  | .stepping start stop step =>
    if step = 1 then Span.Steps.between start stop
    else if step = 0 then .error .zeroStep
    else
      let toEnd := stop - start + (if 0 < step then step - 1 else step + 1)
      let count := Int.fdiv toEnd step
      if 0 < count then .ok ⟨start, step, count.toNat⟩ else .error .emptyRange

/-- What can be asked of one generator. -/
inductive Action where
  /-- A fraction of one, in units of two to the power -53. -/
  | fraction
  /-- A number of some bits. -/
  | bits (count : Int)
  /-- Some bytes, drawn as one number. -/
  | bytes (count : Int)
  /-- A member of a span. -/
  | range (span : Span)
  /-- A member of a value. -/
  | pick (items : Value)
  /-- A list in a random order. -/
  | shuffle (items : Value)

namespace Generator

/-- Draws a member of a span. -/
def range (span : Span) (g : Generator) : Except Failure (Int × Generator) := do
  let steps ← span.steps
  match g.below steps.count with
  | some (n, g) => .ok (steps.start + steps.step * n, g)
  | none => .error .endless

/-- A number of bits that can be drawn, or why it cannot. -/
def width (count : Int) : Except Failure Nat :=
  if ¬ Machine.HoldsShort count then .error .tooManyBits
  else if count < 0 then .error .negativeBits
  else .ok count.toNat

/-- Draws a member of a value. -/
def pickMember (items : Value) (g : Generator) : Except Failure (Value × Generator) :=
  match items.members? with
  | none => .error (.noLength items.kindName)
  | some [] => .error .nothingToChoose
  | some members =>
    match g.pick members with
    | some (item, g) => .ok (item, g)
    | none => .error .endless

/-- Shuffles a list. Of the other values, those with no more than one member stay as they are; the
members of a longer one cannot change places, which shows after the first of them has been
drawn. -/
def shuffleMembers (items : Value) (g : Generator) : Generator × Except Failure Value :=
  match items with
  | .list members =>
    match g.shuffle members with
    | some (members, g) => (g, .ok (.list members))
    | none => (g, .error .endless)
  | other =>
    match other.members? with
    | none => (g, .error (.noLength other.kindName))
    | some members =>
      if members.length ≤ 1 then (g, .ok other)
      else match g.below members.length with
        | some (_, g) => (g, .error (.noAssignment other.kindName))
        | none => (g, .error .endless)

/-- The generator after a draw that has been made, or as it was. -/
def after (g : Generator) : Except Failure (Value × Generator) → Generator × Except Failure Value
  | .ok (answer, g) => (g, .ok answer)
  | .error failure => (g, .error failure)

/-- Does what is asked of a generator: the generator afterwards, and the answer. -/
def perform (g : Generator) : Action → Generator × Except Failure Value
  | .fraction =>
    let (n, g) := g.fraction
    (g, .ok (.int n))
  | .bits count => g.after do
    let (n, g) := g.bits (← width count)
    .ok (.int n, g)
  | .bytes count => g.after do
    let width ← width (8 * count)
    let (b, g) := g.bytes (width / 8)
    .ok (.bytes b, g)
  | .range span => g.after <| (g.range span).map fun (n, g) => (.int n, g)
  | .pick items => g.after (g.pickMember items)
  | .shuffle items => g.shuffleMembers items

end Generator

/-- A step of a session. -/
inductive Request where
  /-- A fresh generator under a name, in place of one that has the name already. -/
  | create (name : String)
  /-- Seeded bytes, which no generator has a part in. -/
  | seededBytes (count : Value)
  /-- Something asked of a named generator. -/
  | ask (name : String) (action : Action)

/-- Generators under names. -/
abbrev Session := Registry Generator

/-- Does one step: the answer, and the generators afterwards. -/
def Session.perform (session : Session) : Request → Session × Except Failure Value
  | .create name => (session.insert name .seeded, .ok .null)
  | .seededBytes count =>
    match SeededBytes.ofValue count with
    | .ok b => (session, .ok (.bytes b))
    | .error failure => (session, .error (.bytes failure))
  | .ask name action =>
    match session.find? name with
    | none => (session, .error (.unknown name))
    | some g =>
      let (g, answer) := g.perform action
      (session.insert name g, answer)

/-- Does the steps in turn: the answers, and the generators at the end. -/
def Session.run (session : Session) : List Request → Session × List (Except Failure Value)
  | [] => (session, [])
  | request :: rest =>
    let (session, answer) := session.perform request
    let (session, answers) := Session.run session rest
    (session, answer :: answers)

end Fixtures.Twister
