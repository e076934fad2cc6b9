import MixedStack.Word

/-!
# Frames as they are shown

What a debugger shows of a frame, whatever else it knows of it.
-/

namespace MixedStack

structure FrameView where
  level : Nat
  pc : Word
  sp : Word
  function : Option String
  deriving DecidableEq, Repr

namespace FrameView

/-- A number filled with blanks behind it. -/
def column (width : Nat) (number : String) : String :=
  number ++ String.ofList (List.replicate (width - number.length) ' ')

def functionName (function : Option String) : String :=
  function.getD "??"

/-- A frame as one line of a backtrace. -/
def line (v : FrameView) : String :=
  "#" ++ column 3 (toString v.level) ++ " " ++ v.pc.hexFilled 16 ++ " in "
    ++ functionName v.function ++ " (sp=" ++ v.sp.hex ++ ")"

end FrameView

/-- Frames that can be shown. -/
class Shown (α : Type) where
  view : α → FrameView

instance : Shown FrameView where
  view := id

end MixedStack
