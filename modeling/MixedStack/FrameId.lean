import MixedStack.Machine

/-!
# Identities of frames

A debugger tells frames apart by where they are. An interpreted frame has its own frame pointer on
the managed stack as well, since its other two words may be those of a native frame.
-/

namespace MixedStack

structure FrameId where
  sp : Word
  pc : Word
  special : Option Word
  deriving DecidableEq, Repr

def FrameId.message (id : FrameId) : String :=
  "\x7bsp=" ++ id.sp.hex ++ ", pc=" ++ id.pc.hex
    ++ (match id.special with
      | some w => ", special=" ++ w.hex
      | none => "")
    ++ "\x7d"

/-- What unwinding a frame answers: which frame it is, and the registers of its caller. -/
structure Unwound where
  id : FrameId
  caller : Registers
  deriving DecidableEq, Repr

end MixedStack
