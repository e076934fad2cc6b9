import MixedStack.Settings
import MixedStack.Traced

/-!
# The execution context

The interpreter keeps where it is in an execution context, and a global points at the context.
-/

namespace MixedStack

structure ContextView where
  ip : Word
  bp : Word
  stackBase : Word
  stackTop : Word
  deriving DecidableEq, Repr

namespace ContextView

/-- The context that the interpreter works in. -/
def read (h : Host) (symbol : String) (layout : ContextLayout) : Attempt ContextView := do
  match ← Traced.lookup h symbol with
  | none => throw (.symbolNotFound symbol)
  | some global =>
    let context ← Attempt.readWord h global
    let ip ← Attempt.readWord h (context + layout.ip)
    let bp ← Attempt.readWord h (context + layout.bp)
    let stackBase ← Attempt.readWord h (context + layout.stackBase)
    let stackTop ← Attempt.readWord h (context + layout.stackTop)
    return { ip, bp, stackBase, stackTop }

end ContextView

end MixedStack
