import MixedStack.FrameView
import MixedStack.Walk

/-!
# Labels

Interpreted frames all lie in no function, so they are shown under one name of their own. A frame
counts as interpreted if its stack pointer is that of a frame a walk made up.
-/

namespace MixedStack

/-- A frame, and the name it is shown under if that is not its own. -/
structure Labelled (α : Type) where
  frame : α
  label : Option String
  deriving DecidableEq, Repr

instance {α : Type} [Shown α] : Shown (Labelled α) where
  view f :=
    let own := Shown.view f.frame
    { own with function := f.label.or own.function }

/-- The name for interpreted frames, and whether it is used at all. -/
structure Labelling where
  label : String
  enabled : Bool
  deriving DecidableEq, Repr

namespace Labelling

variable {α : Type} [Shown α]

/-- Whether a frame is one that a walk made up. -/
def covers (l : Labelling) (made : Option FrameTable) (frame : α) : Bool :=
  l.enabled && made.any fun t => t.contains (Shown.view frame).sp

/-- Labels a frame if it is interpreted. -/
def apply (l : Labelling) (made : Option FrameTable) (frame : α) : Labelled α :=
  ⟨frame, if l.covers made frame then some l.label else none⟩

def applyAll (l : Labelling) (made : Option FrameTable) (frames : List α) : List (Labelled α) :=
  frames.map (l.apply made)

end Labelling

end MixedStack
