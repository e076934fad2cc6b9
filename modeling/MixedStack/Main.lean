import MixedStack.CommandLine

/-!
# The program

Reads the files that the arguments name, and standard input where they name no script, and writes
the answers to standard output and the log to standard error. On a terminal every line is answered
as it is typed.
-/

namespace MixedStack.Program

open CommandLine

/-- Writes what happened to the log, all but the least of it if `verbose`. -/
def log {α : Type} (verbose : Bool) (x : Traced α) : IO Unit := do
  let least := if verbose then Level.debug else Level.warn
  for e in x.events do
    if least.rank ≤ e.level.rank then IO.eprintln e.line

def fail (failure : Failure) : IO UInt32 := do
  IO.eprintln ("Error: " ++ failure.message)
  return 1

/-- The bytes of a file, none if it cannot be read. -/
def readFile? (path : String) : IO (Option (List UInt8)) := do
  try
    let bytes ← IO.FS.readBinFile path
    return some bytes.toList
  catch _ => return none

def loadFiles (o : Options) : IO Files := do
  let paths := o.recording :: (o.settings.toList ++ o.script.toList)
  let contents ← paths.mapM readFile?
  let loaded := paths.zip contents
  return fun path => (loaded.lookup path).join

/-- Answers the lines that are typed. -/
partial def converse (verbose : Bool) (input output : IO.FS.Stream) (d : Debugger) : IO Unit := do
  output.putStr (Shell.prompt true)
  output.flush
  let line ← input.getLine
  if line.isEmpty then return
  let answered := Shell.run false line.toUTF8.toList d
  log verbose answered
  output.putStr answered.value.output
  output.flush
  if answered.value.ending = .exhausted then
    converse verbose input output answered.value.debugger

/-- Answers a script. -/
def answerAll (files : Files) (o : Options) (arguments : List String) : IO UInt32 := do
  let input ← match o.script with
    | some _ => pure []
    | none => do
      let bytes ← (← IO.getStdin).readBinToEnd
      pure bytes.toList
  let ran := run files input arguments
  log o.verbose ran
  IO.print ran.value.output
  match ran.value.failure with
  | some failure => fail failure
  | none => return 0

/-- Answers a user. -/
def answerUser (files : Files) (o : Options) : IO UInt32 := do
  let started := start files o
  log o.verbose started
  match started.value with
  | .error failure => fail failure
  | .ok d =>
    converse o.verbose (← IO.getStdin) (← IO.getStdout) d
    return 0

end MixedStack.Program

open MixedStack MixedStack.Program in
def main (arguments : List String) : IO UInt32 := do
  match CommandLine.parse arguments with
  | .error fault => fail (.arguments fault)
  | .ok o =>
    let files ← loadFiles o
    if o.script.isNone && (← (← IO.getStdin).isTty) then answerUser files o
    else answerAll files o arguments
