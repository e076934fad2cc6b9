import MixedStack.DispatchLoop
import MixedStack.Walk

/-!
# Unwinders

An unwinder is asked about every frame of every thread. It begins a walk at the first frame of a
thread that lies in the dispatch loop, and answers from that walk until the program runs again.
Native frames it leaves to the host.
-/

namespace MixedStack

structure Unwinder where
  settings : Settings
  loop : DispatchLoop
  walks : Table Walk

namespace Unwinder

def new (s : Settings) : Unwinder :=
  ⟨s, .named s.loopSymbol, .empty⟩

/-- Begins a walk for the thread of a frame in the dispatch loop. -/
def enter (h : Host) (f : HostFrame) (u : Unwinder) : Traced (Unwinder × Option Unwound) := do
  match ← (Walk.begin h f u.settings).outcome with
  | .ok (walk, unwound) =>
    return ({ u with walks := u.walks.insert f.thread walk }, some unwound)
  | .error fault =>
    Traced.note (.refused f.thread fault)
    return (u, none)

/-- Whether an instruction belongs to the dispatch loop. -/
def inLoop (h : Host) (pc : Word) (u : Unwinder) : Traced (Unwinder × Bool) := do
  let (loop, inside) ← u.loop.contains h pc
  return ({ u with loop }, inside)

/-- Answers the caller of a frame, or leaves the frame to the host. -/
def unwind (h : Host) (f : HostFrame) (u : Unwinder) : Traced (Unwinder × Option Unwound) := do
  match u.walks.get? f.thread with
  | some walk =>
    let (walk, unwound) ← walk.step h f
    return ({ u with walks := u.walks.insert f.thread walk }, unwound)
  | none =>
    match f.registers.rip with
    | none => return (u, none)
    | some pc =>
      let (u, inside) ← u.inLoop h pc
      if inside then u.enter h f else return (u, none)

def walk? (u : Unwinder) (thread : ThreadId) : Option Walk :=
  u.walks.get? thread

/-- The frames that were made up for a thread. -/
def frames? (u : Unwinder) (thread : ThreadId) : Option FrameTable :=
  (u.walk? thread).map Walk.frames

/-- Forgets all walks, since they belong to the halt before. -/
def resumed (u : Unwinder) : Traced Unwinder := do
  if u.walks.isEmpty then return u
  else
    Traced.note (.dropped u.walks.size)
    return { u with walks := .empty }

end Unwinder

end MixedStack
