import MixedStack.CallRecord
import MixedStack.ContextView
import MixedStack.Table

/-!
# Walks

A walk takes the host through the interpreted frames of one thread. It begins at the native frame of
the dispatch loop, whose caller it says is the frame the interpreter is in. Every step then answers
the caller that the call record below the cursor names. Callers lie strictly lower, so a walk ends;
at the base of the managed stack, or where the chain is not to be trusted, it goes back to the
registers it began with, and answers nothing from then on.
-/

namespace MixedStack

inductive Phase where
  /-- The frame of the dispatch loop was answered. -/
  | boundary
  /-- Interpreted frames were answered. -/
  | interior
  /-- The host goes on by itself. -/
  | complete
  deriving DecidableEq, Repr

def Phase.name : Phase → String
  | boundary => "Boundary"
  | interior => "Interior"
  | complete => "Complete"

/-- The frames that a walk made up: the frame pointer of each by its stack pointer. -/
abbrev FrameTable := Table Word

structure Walk where
  phase : Phase
  /-- The registers to go back to. -/
  entry : Registers
  stackBase : Word
  /-- The frame pointer of the interpreted frame that the host asks about next. -/
  cursor : Word
  frames : FrameTable
  /-- How many interpreted callers were answered. -/
  taken : Nat
  limit : Nat

/-- Where an interpreted frame was called from. -/
inductive Caller where
  | native
  | interpreted (record : CallRecord)
  deriving DecidableEq, Repr

namespace Walk

/-- Begins a walk at the frame of the dispatch loop. -/
def begin (h : Host) (f : HostFrame) (s : Settings) : Attempt (Walk × Unwound) := do
  let entry ← Attempt.ofHost (pure f.readAll)
  let context ← ContextView.read h s.contextSymbol s.layout
  let id : FrameId := ⟨context.stackTop, context.ip, none⟩
  Traced.note (.entered f.thread id context.bp context.stackBase)
  let walk : Walk := {
    phase := .boundary
    entry
    stackBase := context.stackBase
    cursor := context.bp
    frames := Table.empty.insert context.stackTop context.bp
    taken := 0
    limit := s.callerLimit.toNat }
  return (walk, ⟨id, ⟨context.ip, context.stackTop, context.bp⟩⟩)

def caller (h : Host) (w : Walk) : Attempt Caller := do
  if w.limit ≤ w.taken then throw (.corruptChain w.cursor w.cursor)
  else if w.cursor = w.stackBase then return .native
  else
    let record ← CallRecord.readBelow h w.cursor
    if record.callerBp = w.stackBase then return .native
    else if record.callerBp < w.stackBase ∨ w.cursor ≤ record.callerBp then
      throw (.corruptChain w.cursor record.callerBp)
    else return .interpreted record

/-- The walk after the caller that a record names. -/
def advance (w : Walk) (record : CallRecord) : Walk :=
  { w with
    phase := .interior
    cursor := record.callerBp
    frames := w.frames.insert (CallRecord.callerSp w.cursor) record.callerBp
    taken := w.taken + 1 }

/-- The walk once the host goes on by itself. -/
def finish (w : Walk) : Walk :=
  { w with phase := .complete }

/-- Answers the caller of the frame at the cursor, which the host sees as `id`. -/
def stepAt (h : Host) (id : FrameId) (w : Walk) : Traced (Walk × Unwound) := do
  match ← (w.caller h).outcome with
  | .ok .native =>
    Traced.note (.reachedBase id)
    return (w.finish, ⟨id, w.entry⟩)
  | .ok (.interpreted record) =>
    Traced.note (.interpreted id record.function record.callType record.callerIp)
    return (w.advance record,
      ⟨id, ⟨record.callerIp, CallRecord.callerSp w.cursor, record.callerBp⟩⟩)
  | .error fault =>
    Traced.note (.truncated id fault)
    return (w.finish, ⟨id, w.entry⟩)

/-- Answers the caller of a frame, or nothing once the walk is complete. -/
def step (h : Host) (f : HostFrame) (w : Walk) : Traced (Walk × Option Unwound) := do
  if w.phase = .complete then return (w, none)
  else
    match f.registers.rip, f.registers.rsp with
    | some pc, some sp =>
      let (w, unwound) ← w.stepAt h ⟨sp, pc, some w.cursor⟩
      return (w, some unwound)
    | _, _ =>
      Traced.note (.registersMissing f.thread)
      return (w.finish, none)

end Walk

end MixedStack
