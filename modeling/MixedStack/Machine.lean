import MixedStack.Word

/-!
# Threads and registers

The three registers that tell where a thread is: its next instruction, the end of its native stack,
and the frame pointer.
-/

namespace MixedStack

/-- A thread of the program, by its number. -/
abbrev ThreadId := Word

inductive Register where
  | rip
  | rsp
  | rbp
  deriving DecidableEq, Repr

def Register.name : Register → String
  | rip => "rip"
  | rsp => "rsp"
  | rbp => "rbp"

/-- The registers of a frame. -/
structure Registers where
  rip : Word
  rsp : Word
  rbp : Word
  deriving DecidableEq, Repr

/-- The registers of a frame as far as the host knows them. -/
structure KnownRegisters where
  rip : Option Word
  rsp : Option Word
  rbp : Option Word
  deriving DecidableEq, Repr

namespace KnownRegisters

def get? (k : KnownRegisters) : Register → Option Word
  | .rip => k.rip
  | .rsp => k.rsp
  | .rbp => k.rbp

end KnownRegisters

namespace Registers

def known (r : Registers) : KnownRegisters :=
  ⟨some r.rip, some r.rsp, some r.rbp⟩

end Registers

/-- A frame that a host asks about. -/
structure HostFrame where
  thread : ThreadId
  registers : KnownRegisters
  deriving DecidableEq, Repr

namespace HostFrame

/-- The frame of a thread with all registers known. -/
def full (thread : ThreadId) (r : Registers) : HostFrame :=
  ⟨thread, r.known⟩

end HostFrame

end MixedStack
