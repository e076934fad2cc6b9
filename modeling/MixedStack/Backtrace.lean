import MixedStack.FrameView
import MixedStack.Replay
import MixedStack.Unwinder

/-!
# Backtraces

The frames of a thread from the innermost one out. The unwinder is asked about every frame first;
what it leaves to the host is a native frame, whose caller is found by the frame pointer.
-/

namespace MixedStack

structure Frame where
  level : Nat
  pc : Word
  sp : Word
  fp : Word
  id : FrameId
  function : Option String
  deriving DecidableEq, Repr

instance : Shown Frame where
  view f := ⟨f.level, f.pc, f.sp, f.function⟩

namespace Backtrace

/-- How many frames a backtrace has at most. -/
def limit : Nat := 256

/-- The caller of a native frame. The frame pointer leads to the frame pointer of the caller, with
the address to go back to above it. -/
def nativeCaller (h : Host) (r : Registers) : Traced (Option Registers) := do
  if r.rbp = 0 then return none
  match ← Traced.readWord h r.rbp with
  | .error _ => return none
  | .ok rbp =>
    match r.rbp.add? 8 with
    | none => return none
    | some above =>
      match ← Traced.readWord h above with
      | .error _ => return none
      | .ok rip =>
        match r.rbp.add? 16 with
        | none => return none
        | some rsp =>
          if rsp ≤ r.rsp then
            Traced.note (.backwards r.rsp r.rbp)
            return none
          else return some { rip, rsp, rbp }

/-- Which frame this is, and the registers of its caller. -/
def identify (h : Host) (thread : ThreadId) (r : Registers) (u : Unwinder) :
    Traced (Unwinder × FrameId × Option Registers) := do
  let (u, unwound) ← u.unwind h (.full thread r)
  match unwound with
  | some unwound => return (u, unwound.id, some unwound.caller)
  | none => return (u, ⟨r.rsp, r.rip, none⟩, ← nativeCaller h r)

/-- At most `fuel` frames from these registers on. -/
def framesFrom (p : Replay) (thread : ThreadId) :
    (fuel : Nat) → (level : Nat) → Registers → Unwinder → Traced (Unwinder × List Frame)
  | 0, _, _, u => return (u, [])
  | fuel + 1, level, r, u => do
    if r.rip = 0 then return (u, [])
    else
      let (u, id, caller) ← identify p.host thread r u
      let frame : Frame := ⟨level, r.rip, r.rsp, r.rbp, id, p.functionAt? r.rip⟩
      match caller with
      | none => return (u, [frame])
      | some r =>
        let (u, frames) ← framesFrom p thread fuel (level + 1) r u
        return (u, frame :: frames)

/-- The frames of a thread, none if the program has no such thread. -/
def frames (p : Replay) (thread : ThreadId) (u : Unwinder) :
    Traced (Unwinder × Option (List Frame)) :=
  match p.thread? thread with
  | none => return (u, none)
  | some state => do
    let (u, frames) ← framesFrom p thread limit 0 state.registers u
    return (u, some frames)

end Backtrace

end MixedStack
