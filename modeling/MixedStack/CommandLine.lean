import MixedStack.Recording.Format
import MixedStack.Settings.Format
import MixedStack.Shell.Run

/-!
# The command line

One recording is named on the command line, and options may stand anywhere around it. The program
reads the settings, then the recording, and then answers a script.
-/

namespace MixedStack.CommandLine

structure Options where
  recording : String
  settings : Option String
  script : Option String
  verbose : Bool
  deriving DecidableEq, Repr

/-- What is wrong with the arguments. -/
inductive ArgumentFault where
  | settingsPathMissing
  | scriptPathMissing
  | unknownOption (argument : String)
  | secondRecording
  | noRecording
  deriving DecidableEq, Repr

def usage : String :=
  "usage: b9-unwind <snapshot.json> [--config <config.json>] [--batch <commands>] [-v]"

def ArgumentFault.message : ArgumentFault → String
  | settingsPathMissing => "--config needs a path"
  | scriptPathMissing => "--batch needs a path"
  | unknownOption argument => "unknown option '" ++ argument ++ "'\n" ++ usage
  | secondRecording => "only one snapshot may be given\n" ++ usage
  | noRecording => usage

/-- What is known of the options so far. -/
structure Draft where
  recording : Option String
  settings : Option String
  script : Option String
  verbose : Bool

namespace Draft

def blank : Draft := ⟨none, none, none, false⟩

def finish (d : Draft) : Except ArgumentFault Options :=
  match d.recording with
  | some recording => .ok ⟨recording, d.settings, d.script, d.verbose⟩
  | none => .error .noRecording

end Draft

/-- What an argument is by itself. -/
inductive Kind where
  | settings
  | script
  | verbose
  | unknown
  | recording
  deriving DecidableEq, Repr

def Kind.of (argument : String) : Kind :=
  if argument = "--config" then .settings
  else if argument = "--batch" ∨ argument = "-x" then .script
  else if argument = "-v" ∨ argument = "--verbose" then .verbose
  else if argument.toList.head? = some '-' then .unknown
  else .recording

/-- Reads arguments from left to right. -/
def parseFrom (d : Draft) : List String → Except ArgumentFault Options
  | [] => d.finish
  | argument :: rest =>
    match Kind.of argument, rest with
    | .settings, path :: rest => parseFrom { d with settings := some path } rest
    | .settings, [] => .error .settingsPathMissing
    | .script, path :: rest => parseFrom { d with script := some path } rest
    | .script, [] => .error .scriptPathMissing
    | .verbose, rest => parseFrom { d with verbose := true } rest
    | .unknown, _ => .error (.unknownOption argument)
    | .recording, rest =>
      if d.recording.isSome then .error .secondRecording
      else parseFrom { d with recording := some argument } rest

def parse (arguments : List String) : Except ArgumentFault Options :=
  parseFrom .blank arguments

inductive Failure where
  | arguments (fault : ArgumentFault)
  | settings (path : String)
  | unreadable (path : String)
  | noRecording (path : String)
  | script (path : String)
  | notText
  deriving DecidableEq, Repr

def Failure.message : Failure → String
  | arguments fault => fault.message
  | settings path => "loading config " ++ path
  | unreadable path => "reading snapshot " ++ path
  | noRecording path => "parsing snapshot " ++ path
  | script path => "opening " ++ path
  | notText => "stream did not contain valid UTF-8"

/-- The files that can be read, by name. -/
abbrev Files := String → Option (List UInt8)

def textOf? (files : Files) (path : String) : Option String :=
  (files path).bind Text.ofUtf8?

def settings (files : Files) (o : Options) : Except Failure Settings :=
  match o.settings with
  | none => .ok .standard
  | some path =>
    match (textOf? files path).map fun text => Settings.ofText text.toList with
    | some (.ok s) => .ok s
    | _ => .error (.settings path)

def recording (files : Files) (o : Options) : Except Failure Recording :=
  match textOf? files o.recording with
  | none => .error (.unreadable o.recording)
  | some text =>
    match Recording.ofText text.toList with
    | .ok r => .ok r
    | .error _ => .error (.noRecording o.recording)

def start (files : Files) (o : Options) : Traced (Except Failure Debugger) :=
  match settings files o with
  | .error failure => return .error failure
  | .ok s =>
    match recording files o with
    | .error failure => return .error failure
    | .ok r => do
      Traced.note (.loaded r.stops.length)
      return .ok (.new (.ofRecording r) s)

/-- The script that options ask for, read from standard input unless they name one. -/
def script (files : Files) (input : List UInt8) (o : Options) : Except Failure (List UInt8) :=
  match o.script with
  | none => .ok input
  | some path =>
    match files path with
    | some bytes => .ok bytes
    | none => .error (.script path)

structure Result where
  output : String
  failure : Option Failure

/-- A run that fails before any output. -/
def Result.failed (failure : Failure) : Result := ⟨"", some failure⟩

/-- Runs the program with these files and this standard input. -/
def run (files : Files) (input : List UInt8) (arguments : List String) : Traced Result := do
  match parse arguments with
  | .error fault => return .failed (.arguments fault)
  | .ok o =>
    match ← start files o with
    | .error failure => return .failed failure
    | .ok d =>
      match script files input o with
      | .error failure => return .failed failure
      | .ok script =>
        let outcome ← Shell.run false script d
        return ⟨outcome.output, if outcome.ending = .notText then some .notText else none⟩

end MixedStack.CommandLine
