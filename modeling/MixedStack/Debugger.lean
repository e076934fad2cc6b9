import MixedStack.Backtrace
import MixedStack.Label

/-!
# The debugger

A replayed program, the unwinder for it, the thread that commands are about, and the backtraces made
since the last halt. Every backtrace is made once and kept until the program runs on.
-/

namespace MixedStack

/-- What a command answers. -/
structure Reply where
  lines : List String
  /-- Whether no more commands are wanted. -/
  quits : Bool
  deriving DecidableEq, Repr

namespace Reply

/-- The answer of a command that has others after it. -/
def say (lines : List String) : Reply := ⟨lines, false⟩

/-- The text of an answer, every line with its end. -/
def text (r : Reply) : String :=
  String.join (r.lines.map fun line => line ++ "\n")

end Reply

structure Debugger where
  replay : Replay
  unwinder : Unwinder
  labelling : Labelling
  /-- The thread that commands are about. -/
  current : Option ThreadId
  /-- The backtraces of threads at this stop. -/
  backtraces : Table (List Frame)

namespace Debugger

def firstThread (p : Replay) : Option ThreadId :=
  p.threads.head?.map ThreadState.id

def new (p : Replay) (s : Settings) : Debugger where
  replay := p
  unwinder := .new s
  labelling := ⟨s.frameLabel, true⟩
  current := firstThread p
  backtraces := .empty

/-- The frames of a thread, kept or made now. -/
def frames (thread : ThreadId) (d : Debugger) : Traced (Debugger × Option (List Frame)) := do
  match d.backtraces.get? thread with
  | some frames => return (d, some frames)
  | none =>
    let (unwinder, made) ← Backtrace.frames d.replay thread d.unwinder
    match made with
    | none => return ({ d with unwinder }, none)
    | some frames =>
      return ({ d with unwinder, backtraces := d.backtraces.insert thread frames }, some frames)

def labelledFrames (thread : ThreadId) (d : Debugger) :
    Traced (Debugger × Option (List (Labelled Frame))) := do
  let (d, frames) ← d.frames thread
  return (d, frames.map (d.labelling.applyAll (d.unwinder.frames? thread)))

/-- Lets the program run to its next stop. The current thread stays if it is still there. -/
def resume (d : Debugger) : Traced Debugger := do
  let unwinder ← d.unwinder.resumed
  let replay ← d.replay.resume
  let kept := d.current.filter fun thread => (replay.thread? thread).isSome
  return { d with
    replay
    unwinder
    current := kept.or (firstThread replay)
    backtraces := .empty }

/-- How the shell is used. -/
def help : List String := [
  "bt, backtrace [THREAD]  print the backtrace of the current (or given) thread",
  "thread [ID]             list threads, or select one",
  "continue, c             resume the target until its next stop",
  "reload                  simulate the program's code being reloaded",
  "vm-frames               dump the interpreter frame chain of the current thread",
  "help                    show this text",
  "quit, exit              leave the shell"]

def threadLine (d : Debugger) (t : ThreadState) : String :=
  (if d.current = some t.id then "*" else " ") ++ " " ++ FrameView.column 4 t.id.decimal ++ " "
    ++ t.registers.rip.hex ++ " in "
    ++ FrameView.functionName (d.replay.functionAt? t.registers.rip)

def noThread (thread : ThreadId) : Reply :=
  .say ["No thread " ++ thread.decimal ++ "."]

def showFrames (thread : ThreadId) (d : Debugger) : Traced (Debugger × Reply) := do
  let (d, frames) ← d.labelledFrames thread
  match frames with
  | some frames => return (d, .say (frames.map fun f => (Shown.view f).line))
  | none => return (d, noThread thread)

def select (thread : ThreadId) (d : Debugger) : Debugger × Reply :=
  match d.replay.thread? thread with
  | some _ =>
    ({ d with current := some thread }, .say ["[Switching to thread " ++ thread.decimal ++ "]"])
  | none => (d, noThread thread)

/-- Goes to the next stop. -/
def goOn (d : Debugger) : Traced (Debugger × Reply) := do
  match d.replay.place? with
  | none => return (d, .say ["The program is not being run."])
  | some _ =>
    let d ← d.resume
    match d.replay.place? with
    | some place =>
      return (d, .say ["Stopped (stop " ++ toString (place + 1) ++ " of "
        ++ toString d.replay.stops.length ++ ")."])
    | none => return (d, .say ["Program exited."])

/-- What is known of the interpreted frames of the current thread. -/
def chainLines (d : Debugger) : List String :=
  let entries := match d.current.bind d.unwinder.frames? with
    | some made => made.entries
    | none => []
  if entries.isEmpty then ["No interpreter frames."]
  else entries.map fun (sp, bp) => "sp=" ++ sp.hex ++ " bp=" ++ bp.hex

/-- What a command does. -/
def perform (d : Debugger) : Command → Traced (Debugger × Reply)
  | .backtrace thread =>
    match thread.or d.current with
    | some thread => d.showFrames thread
    | none => return (d, .say ["No stack."])
  | .threads => return (d, .say (d.replay.threads.map d.threadLine))
  | .select thread => return d.select thread
  | .resume => d.goOn
  | .reload => do
    let replay ← d.replay.reload
    return ({ d with replay }, .say ["Code layout reloaded."])
  | .chain => return (d, .say d.chainLines)
  | .help => return (d, .say help)
  | .quit => return (d, ⟨[], true⟩)

def execute (command : Command) (d : Debugger) : Traced (Debugger × Reply) := do
  Traced.note (.executing command)
  d.perform command

end Debugger

end MixedStack
