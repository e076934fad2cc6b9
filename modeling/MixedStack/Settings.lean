import MixedStack.Word

/-!
# Settings

Where the interpreter keeps what a walk needs, and how far a walk may go.
-/

namespace MixedStack

/-- The offsets of the fields of an execution context. -/
structure ContextLayout where
  ip : Word
  bp : Word
  stackBase : Word
  stackTop : Word
  deriving DecidableEq, Repr

namespace ContextLayout

/-- Four words, one after the other. -/
def standard : ContextLayout := ⟨0x00, 0x08, 0x10, 0x18⟩

end ContextLayout

structure Settings where
  /-- The entry of the dispatch loop. -/
  loopSymbol : String
  /-- The global that points at the execution context. -/
  contextSymbol : String
  layout : ContextLayout
  /-- The name that interpreted frames are shown under. -/
  frameLabel : String
  /-- How many interpreted callers a walk takes at most. -/
  callerLimit : Word
  deriving DecidableEq, Repr

namespace Settings

def standard : Settings where
  loopSymbol := "b9::ExecutionContext::interpret"
  contextSymbol := "b9::currentExecutionContext"
  layout := .standard
  frameLabel := "B9 interpreted function"
  callerLimit := 4096

end Settings

end MixedStack
