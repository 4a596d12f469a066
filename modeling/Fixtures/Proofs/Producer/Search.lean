import Mathlib.Data.Finset.Max
import Mathlib.Order.Interval.Finset.Nat
import Fixtures.Proofs.Producer.Window

/-!
# Searching a producer

A search takes items until one equals the wanted value. It therefore finds the first match from the
position on, and stops short of everything behind it, so that the next search finds the next match.
The places of the matches that are left decide what a search answers, where it leaves the producer,
and how often it can be repeated.
-/

namespace Fixtures.Producer

variable {xs : List Value} {hpos : 0 < xs.length}

variable {p : Producer} {wanted : Value}

namespace Session

variable {session : Session} {name : String}

end Session

end Fixtures.Producer
