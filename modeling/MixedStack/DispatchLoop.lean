import MixedStack.Traced

/-!
# The dispatch loop

The code that runs the interpreted program. Its block is found by its symbol and kept as long as
the layout of the code stays the same; what is not found is sought again.
-/

namespace MixedStack

structure DispatchLoop where
  symbol : String
  /-- The block as it was found last. -/
  block : Option CodeBlock
  deriving DecidableEq, Repr

namespace DispatchLoop

def named (symbol : String) : DispatchLoop := ⟨symbol, none⟩

def seek (h : Host) (l : DispatchLoop) : Traced (DispatchLoop × Option CodeBlock) := do
  match ← Traced.lookup h l.symbol with
  | none =>
    Traced.note (.loopNotLoaded l.symbol)
    return (named l.symbol, none)
  | some addr =>
    match h.blockAt addr with
    | none => return (named l.symbol, none)
    | some block =>
      Traced.note (.loopFound l.symbol block)
      return (⟨l.symbol, some block⟩, some block)

/-- The block in the current layout. -/
def resolve (h : Host) (l : DispatchLoop) : Traced (DispatchLoop × Option CodeBlock) :=
  match l.block.filter h.isCurrent with
  | some block => return (l, some block)
  | none => l.seek h

/-- Whether an instruction belongs to the loop. -/
def contains (h : Host) (pc : Word) (l : DispatchLoop) : Traced (DispatchLoop × Bool) := do
  let (l, block) ← l.resolve h
  return (l, block.any fun b => b.contains pc)

end DispatchLoop

end MixedStack
