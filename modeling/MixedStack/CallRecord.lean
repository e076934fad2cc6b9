import MixedStack.Traced

/-!
# Call records

A call leaves four slots below the frame pointer of the callee. From the frame pointer down they
are the call's type, the caller's frame pointer, the instruction to go back to, and the function.
They are read in that order, and the first one that is not as it should be is the fault.
-/

namespace MixedStack

namespace Slot

def read (h : Host) (addr : Word) : Attempt Slot :=
  Slot.mk <$> Attempt.readWord h addr

/-- The payload of the slot at an address, which has to carry a tag. -/
def readTagged (h : Host) (addr : Word) (expected : Tag) : Attempt Word := do
  match (← read h addr).expect expected with
  | .ok payload => return payload
  | .error found => throw (.tagMismatch addr expected found)

end Slot

structure CallRecord where
  function : Word
  callerIp : Word
  callerBp : Word
  callType : Word
  deriving DecidableEq, Repr

namespace CallRecord

/-- The slots of a record. -/
def slots : Nat := 4

/-- The bytes that so many slots take. -/
def distance (count : Nat) : Nat :=
  Slot.size * count

/-- The address of a slot, counted down from a frame pointer. -/
def slotBelow (bp : Word) (count : Nat) : Except Fault Word :=
  match bp.sub? (UInt64.ofNat (distance count)) with
  | some addr => .ok addr
  | none => .error (.host (.unmapped bp (distance count)))

/-- The payload of a slot of the record below a frame pointer. -/
def readField (h : Host) (bp : Word) (count : Nat) (expected : Tag) : Attempt Word := do
  Slot.readTagged h (← Attempt.settled (slotBelow bp count)) expected

def readBelow (h : Host) (bp : Word) : Attempt CallRecord := do
  let callType ← readField h bp 1 .uint48
  let callerBp ← readField h bp 2 .pointer
  let callerIp ← readField h bp 3 .pointer
  let function ← readField h bp 4 .uint48
  return { function, callerIp, callerBp, callType }

/-- Where the caller's stack ended when it called: the lowest slot of the record. -/
def callerSp (bp : Word) : Word :=
  bp - UInt64.ofNat (distance slots)

end CallRecord

end MixedStack
