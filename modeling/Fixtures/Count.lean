import Fixtures.Value.Basic

/-!
# Counts

A count is a non-negative integer given by a client. An argument stands for an integer if it is
one, or if it is an object that yields one when it is used as an index. A truth value is no count
even though it counts as an integer elsewhere.
-/

namespace Fixtures

/-- What a client passes where a count is wanted. -/
inductive Argument where
  /-- A value as it is. -/
  | plain (v : Value)
  /-- An object of some other kind that yields a value when it is used as an index. -/
  | indexed (yielded : Value)
  /-- An object that cannot be used as an index, such as a producer. -/
  | noIndex

namespace Count

/-- Why an argument is no count. -/
inductive Refusal where
  /-- It is a truth value. -/
  | truthValue
  /-- It does not stand for an integer. -/
  | notIntegerLike
  /-- It stands for an integer below zero. -/
  | negative
  deriving DecidableEq

/-- The message about an argument of a given name that is no count, whatever the reason. -/
def Refusal.message (_ : Refusal) (argumentName : String) : String :=
  argumentName ++ " must be a non-negative integer"

/-- The count that an integer is. -/
def ofInt (n : Int) : Except Refusal Nat :=
  if n < 0 then .error .negative else .ok n.toNat

/-- The count that an argument is, or why it is none (`_count`). -/
def ofArgument : Argument → Except Refusal Nat
  | .plain (.bool _) => .error .truthValue
  | .plain (.int n) => ofInt n
  | .plain _ => .error .notIntegerLike
  | .indexed yielded =>
    match yielded.asInteger? with
    | some n => ofInt n
    | none => .error .notIntegerLike
  | .noIndex => .error .notIntegerLike

end Count

end Fixtures
