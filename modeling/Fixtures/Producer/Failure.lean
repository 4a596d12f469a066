import Fixtures.Count
import Fixtures.Machine
import Fixtures.Text.Quoted
import Fixtures.Text.Utf8

/-!
# Failures of producers

Everything that can go wrong with a producer, as causes; the wording is in one place.
-/

namespace Fixtures

/-- What a client may gather the items of a producer into. -/
inductive Container where
  /-- A list. -/
  | list
  /-- A tuple. -/
  | tuple
  /-- A byte string. -/
  | bytes
  /-- A byte string that can be changed. -/
  | byteArray
  deriving DecidableEq

namespace Producer

/-- The numbers of a producer that a client can read and not write. -/
inductive Fixed where
  /-- The number of items produced in all. -/
  | limit
  /-- The number of items claimed. -/
  | claimed
  /-- The number of items produced so far. -/
  | position
  deriving DecidableEq

/-- The name under which a number is read. -/
def Fixed.name : Fixed → String
  | .limit => "limit"
  | .claimed => "claimed"
  | .position => "position"

/-- Why an operation on a producer fails. -/
inductive Failure where
  /-- An argument is no count. -/
  | badCount (argumentName : String) (refusal : Count.Refusal)
  /-- The items are a value that cannot be gone through. -/
  | notIterable (kindName : String)
  /-- There are no items. -/
  | noItems
  /-- All items have been produced. -/
  | exhausted
  /-- The items have been emptied, so that there is nothing to repeat. -/
  | emptyCycle
  /-- A claim or a place in a list does not fit into a machine integer. -/
  | notMachineInteger
  /-- There is no memory for as many items as are claimed. -/
  | memory (shortage : Machine.Shortage)
  /-- A byte is wanted and the item is no integer. -/
  | notAnInteger (kindName : String)
  /-- A byte is wanted and the item is an integer out of its range. -/
  | byteOutOfRange (container : Container)
  /-- A number cannot be assigned to. -/
  | readOnly (number : Fixed) (kind : String)
  /-- A value that is no list cannot be asked to do what a list does. -/
  | noOperation (kindName operation : String)
  /-- The members of a value that is no list cannot be assigned to. -/
  | noAssignment (kindName : String)
  /-- No item stands at the place that is to be assigned to. -/
  | noPlaceToAssign
  /-- The place that is to be assigned to does not fit into a machine integer. -/
  | placeTooLarge
  /-- No item stands at the place that is to be taken out. -/
  | noPlaceToPop
  /-- An item is to be taken out of an empty list. -/
  | popFromEmpty
  /-- A value of some kind, or a producer, has no length. -/
  | noLength (kind : String)
  /-- Producers cannot be hashed. -/
  | unhashable (kind : String)
  /-- The name of a kind holds a NUL. -/
  | nulInKind
  /-- No producer has the name. -/
  | unknown (name : String)
  deriving DecidableEq

/-- The most bytes of a kind's name that a message about what the kind lacks has room for. -/
def kindRoom : Nat := 200

/-- As much of a kind's name as there is room for. -/
def clippedKind (kind : String) : String :=
  String.ofList (Text.Utf8.clip kindRoom kind.toList)

/-- The message of a failure. -/
def Failure.message : Failure → String
  | .badCount argumentName refusal => refusal.message argumentName
  | .notIterable kindName => "'" ++ kindName ++ "' object is not iterable"
  | .noItems => "items must not be empty"
  | .exhausted => ""
  | .emptyCycle => "integer modulo by zero"
  | .notMachineInteger => "Python int too large to convert to C ssize_t"
  | .memory shortage => shortage.message
  | .notAnInteger kindName => "'" ++ kindName ++ "' object cannot be interpreted as an integer"
  | .byteOutOfRange .byteArray => "byte must be in range(0, 256)"
  | .byteOutOfRange _ => "bytes must be in range(0, 256)"
  | .readOnly number kind =>
    "property '" ++ number.name ++ "' of " ++ Text.Quoted.quote kind ++ " object has no setter"
  | .noOperation kindName operation =>
    "'" ++ kindName ++ "' object has no attribute '" ++ operation ++ "'"
  | .noAssignment kindName => "'" ++ kindName ++ "' object does not support item assignment"
  | .noPlaceToAssign => "list assignment index out of range"
  | .placeTooLarge => "cannot fit 'int' into an index-sized integer"
  | .noPlaceToPop => "pop index out of range"
  | .popFromEmpty => "pop from empty list"
  | .noLength kind => "object of type '" ++ clippedKind kind ++ "' has no len()"
  | .unhashable kind => "unhashable type: '" ++ clippedKind kind ++ "'"
  | .nulInKind => "type name must not contain null characters"
  | .unknown name => Text.Quoted.quote name

end Producer

end Fixtures
