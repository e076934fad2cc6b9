import MixedStack.Host
import MixedStack.Slot

/-!
# Faults

What can be wrong with the managed stack of a halted program.
-/

namespace MixedStack

inductive Fault where
  | host (error : HostError)
  | tagMismatch (addr : Word) (expected found : Tag)
  | symbolNotFound (name : String)
  /-- The frame at `cursor` claims a caller that does not lie between it and the base. -/
  | corruptChain (cursor caller : Word)
  deriving DecidableEq, Repr

def Fault.message : Fault → String
  | host error => error.message
  | tagMismatch addr expected found =>
    "tagged slot at " ++ addr.hex ++ ": expected " ++ expected.name ++ ", found " ++ found.name
  | symbolNotFound name => "symbol '" ++ name ++ "' not found"
  | corruptChain cursor caller =>
    "corrupt frame chain: caller " ++ caller.hex ++ " is not below " ++ cursor.hex

end MixedStack
