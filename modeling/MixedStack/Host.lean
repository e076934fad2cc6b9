import MixedStack.Machine

/-!
# Hosts

What a walk asks of the debugger around it: addresses of symbols, memory, and the blocks of code.
Blocks belong to a layout of the code, and are void once the code was laid out anew.
-/

namespace MixedStack

inductive HostError where
  | unmapped (addr : Word) (len : Nat)
  | unknownRegister (r : Register)
  | running
  deriving DecidableEq, Repr

def HostError.message : HostError → String
  | unmapped addr len =>
    "cannot access memory at " ++ addr.hex ++ " (" ++ toString len ++ " bytes)"
  | unknownRegister r => "register " ++ r.name ++ " is not available in this frame"
  | running => "target is running"

/-- The code of one function, from its first to its last byte. -/
structure CodeBlock where
  start : Word
  last : Word
  /-- The layout of the code that the block belongs to. -/
  generation : Nat
  deriving DecidableEq, Repr

def CodeBlock.contains (b : CodeBlock) (pc : Word) : Bool :=
  b.start ≤ pc && pc ≤ b.last

/-- A halted program as a debugger shows it. -/
structure Host where
  lookup : String → Option Word
  read : (addr : Word) → (len : Nat) → Except HostError (List UInt8)
  blockAt : (pc : Word) → Option CodeBlock
  isCurrent : CodeBlock → Bool

namespace Host

def readWord (h : Host) (addr : Word) : Except HostError Word := do
  return Word.ofBytes (← h.read addr 8)

end Host

namespace HostFrame

def read (f : HostFrame) (r : Register) : Except HostError Word :=
  match f.registers.get? r with
  | some w => .ok w
  | none => .error (.unknownRegister r)

def readAll (f : HostFrame) : Except HostError Registers := do
  let rip ← f.read .rip
  let rsp ← f.read .rsp
  let rbp ← f.read .rbp
  return { rip, rsp, rbp }

end HostFrame

end MixedStack
