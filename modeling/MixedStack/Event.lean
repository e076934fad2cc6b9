import MixedStack.Command
import MixedStack.Fault
import MixedStack.FrameId

/-!
# Events

What happened on the way to an answer, for the log.
-/

namespace MixedStack

inductive Level where
  | trace
  | debug
  | info
  | warn
  deriving DecidableEq, Repr

namespace Level

def name : Level → String
  | trace => "TRACE"
  | debug => "DEBUG"
  | info => "INFO"
  | warn => "WARN"

def rank : Level → Nat
  | trace => 0
  | debug => 1
  | info => 2
  | warn => 3

end Level

inductive Event where
  | executing (command : Command)
  | loopNotLoaded (symbol : String)
  | loopFound (symbol : String) (block : CodeBlock)
  /-- A walk begins at the dispatch loop. -/
  | entered (thread : ThreadId) (id : FrameId) (bp base : Word)
  | interpreted (id : FrameId) (function callType callerIp : Word)
  | reachedBase (id : FrameId)
  | truncated (id : FrameId) (fault : Fault)
  | registersMissing (thread : ThreadId)
  /-- A walk cannot begin. -/
  | refused (thread : ThreadId) (fault : Fault)
  | dropped (walks : Nat)
  | resumed (stop : Option Nat)
  | reloaded (generation : Nat)
  /-- The native caller would lie below its callee. -/
  | backwards (sp fp : Word)
  | loaded (stops : Nat)
  deriving DecidableEq, Repr

namespace Event

def level : Event → Level
  | executing _ | entered .. | interpreted .. | reachedBase _ | resumed _ | reloaded _ => .debug
  | loopNotLoaded _ | loopFound .. | backwards .. => .trace
  | truncated .. | registersMissing _ | refused .. => .warn
  | dropped _ | loaded _ => .info

def message : Event → String
  | executing _ => "executing"
  | loopNotLoaded _ => "interpreter symbol not loaded yet"
  | loopFound .. => "resolved interpreter region"
  | entered .. => "entered interpreter"
  | interpreted .. => "interpreted frame"
  | reachedBase _ => "reached the managed stack base, returning to native frames"
  | truncated .. => "truncating interpreter chain, returning to native frames"
  | registersMissing _ => "pending frame has no pc/sp, ending interpreter chain"
  | refused .. => "cannot unwind interpreter frame"
  | dropped _ => "target resumed, dropping unwind sessions"
  | resumed _ => "target resumed"
  | reloaded _ => "code layout reloaded"
  | backwards .. => "frame pointer chain goes backwards"
  | loaded _ => "snapshot loaded"

def details : Event → List (String × String)
  | executing command => [("command", command.name)]
  | loopNotLoaded symbol => [("symbol", symbol)]
  | loopFound symbol block =>
    [("symbol", symbol), ("start", block.start.hex), ("end", block.last.hex)]
  | entered thread id bp base =>
    [("thread", thread.decimal), ("id", id.message), ("bp", bp.hex), ("base", base.hex)]
  | interpreted id function callType callerIp =>
    [("id", id.message), ("function", function.decimal), ("call_type", callType.decimal),
      ("caller_ip", callerIp.hex)]
  | reachedBase id => [("id", id.message)]
  | truncated id fault => [("id", id.message), ("error", fault.message)]
  | registersMissing thread => [("thread", thread.decimal)]
  | refused thread fault => [("thread", thread.decimal), ("error", fault.message)]
  | dropped walks => [("sessions", toString walks)]
  | resumed stop =>
    [("stop", match stop with
      | some place => "Some(" ++ toString place ++ ")"
      | none => "None")]
  | reloaded generation => [("generation", toString generation)]
  | backwards sp fp => [("sp", sp.hex), ("fp", fp.hex)]
  | loaded stops => [("stops", toString stops)]

/-- An event as one line of the log. -/
def line (e : Event) : String :=
  let details := e.details.map fun (key, value) => key ++ "=" ++ value
  " ".intercalate (e.level.name :: e.message :: details)

end Event

end MixedStack
