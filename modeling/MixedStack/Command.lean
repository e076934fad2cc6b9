import MixedStack.Machine

/-!
# Commands

What can be asked of the debugger.
-/

namespace MixedStack

inductive Command where
  /-- The frames of a thread, or of the current one. -/
  | backtrace (thread : Option ThreadId)
  | threads
  | select (thread : ThreadId)
  | resume
  | reload
  /-- The interpreted frames of the current thread. -/
  | chain
  | help
  | quit
  deriving DecidableEq, Repr

namespace Command

/-- A thread as the log shows it. -/
def threadName (thread : ThreadId) : String :=
  "Some(ThreadId(" ++ thread.decimal ++ "))"

def name : Command → String
  | backtrace none => "Backtrace \x7b thread: None \x7d"
  | backtrace (some thread) => "Backtrace \x7b thread: " ++ threadName thread ++ " \x7d"
  | threads => "Thread(None)"
  | select thread => "Thread(" ++ threadName thread ++ ")"
  | resume => "Continue"
  | reload => "Reload"
  | chain => "VmFrames"
  | help => "Help"
  | quit => "Quit"

end Command

end MixedStack
