import MixedStack.Debugger
import MixedStack.Shell.Parse
import MixedStack.Text.Lines

/-!
# Running scripts

A script is read line by line. Every line is answered before the next one is looked at, so what
stands behind a `quit` does not matter, and a line that is no text ends the script only once it is
reached.
-/

namespace MixedStack.Shell

/-- What a line is answered, and the debugger after it. -/
def answer (line : String) (d : Debugger) : Traced (Debugger × Reply) :=
  match parse line with
  | .ok (some command) => d.execute command
  | .ok none => return (d, .say [])
  | .error refusal => return (d, .say [refusal.message])

/-- How a script ended: with its last line, at a `quit`, or at a line that is no text. -/
inductive Ending where
  | exhausted
  | quit
  | notText
  deriving DecidableEq, Repr

structure Outcome where
  debugger : Debugger
  output : String
  ending : Ending

namespace Outcome

/-- An outcome with more output in front. -/
def behind (text : String) (o : Outcome) : Outcome :=
  { o with output := text ++ o.output }

end Outcome

/-- What is written before a line is read. -/
def prompt (shown : Bool) : String :=
  if shown then "(b9) " else ""

/-- Answers lines up to a `quit`, or to one that is no text. -/
def runLines (prompted : Bool) : List (List UInt8) → Debugger → Traced Outcome
  | [], d => return ⟨d, "", .exhausted⟩
  | bytes :: rest, d =>
    match Text.ofUtf8? bytes with
    | none => return ⟨d, "", .notText⟩
    | some line => do
      let (d, reply) ← answer line d
      if reply.quits then return ⟨d, reply.text, .quit⟩
      else
        let outcome ← runLines prompted rest d
        return outcome.behind (reply.text ++ prompt prompted)

def run (prompted : Bool) (script : List UInt8) (d : Debugger) : Traced Outcome := do
  let outcome ← runLines prompted (Text.lines script) d
  return outcome.behind (prompt prompted)

end MixedStack.Shell
