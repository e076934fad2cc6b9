import MixedStack.Recording
import MixedStack.Traced

/-!
# Replays

A recording that is played back halt by halt. Behind the last halt the program has exited.
-/

namespace MixedStack

structure Replay where
  symbols : List Symbol
  /-- The memory that is the same at all stops. -/
  memory : List Region
  stops : List Stop
  /-- How many stops were left behind. -/
  passed : Nat
  /-- How often the code was laid out anew. -/
  generation : Nat
  deriving DecidableEq, Repr

namespace Replay

def ofRecording (r : Recording) : Replay where
  symbols := r.symbols
  memory := r.memory
  stops := r.stops
  passed := 0
  generation := 0

/-- Where the program is halted. -/
def stop? (r : Replay) : Option Stop :=
  r.stops[r.passed]?

/-- The place of the current stop among all stops. -/
def place? (r : Replay) : Option Nat :=
  if r.passed < r.stops.length then some r.passed else none

/-- The threads of the program, none while it is not halted. -/
def threads (r : Replay) : List ThreadState :=
  match r.stop? with
  | some stop => stop.threads
  | none => []

def thread? (r : Replay) (id : ThreadId) : Option ThreadState :=
  r.threads.find? fun t => t.id = id

/-- Lets the program run to its next stop. -/
def resume (r : Replay) : Traced Replay := do
  let r := { r with passed := if r.passed < r.stops.length then r.passed + 1 else r.passed }
  Traced.note (.resumed r.place?)
  return r

/-- Lays out the code anew, with these symbols. -/
def reloadWith (symbols : List Symbol) (r : Replay) : Traced Replay := do
  let r := { r with symbols, generation := r.generation + 1 }
  Traced.note (.reloaded r.generation)
  return r

def reload (r : Replay) : Traced Replay :=
  r.reloadWith r.symbols

/-- The first symbol whose code has a byte at an address. -/
def code? (r : Replay) (pc : Word) : Option Symbol :=
  r.symbols.find? fun s => s.covers pc

def functionAt? (r : Replay) (pc : Word) : Option String :=
  (r.code? pc).map Symbol.name

def blockAt? (r : Replay) (pc : Word) : Option CodeBlock :=
  (r.code? pc).map fun s => ⟨s.address, s.address + s.size - 1, r.generation⟩

/-- The address of the first symbol with a name. -/
def lookup (r : Replay) (name : String) : Option Word :=
  (r.symbols.find? fun s => s.name = name).map Symbol.address

/-- The bytes from an address on. The memory of the stop hides what is the same at all stops. -/
def read (r : Replay) (addr : Word) (len : Nat) : Except HostError (List UInt8) :=
  match r.stop? with
  | none => .error .running
  | some stop =>
    match (stop.memory ++ r.memory).findSome? fun region => region.read? addr len with
    | some bytes => .ok bytes
    | none => .error (.unmapped addr len)

/-- The program as a walk sees it. -/
def host (r : Replay) : Host where
  lookup := r.lookup
  read := r.read
  blockAt := r.blockAt?
  isCurrent block := block.generation = r.generation

end Replay

end MixedStack
