import MixedStack.Command
import MixedStack.Shell.Words
import MixedStack.Text.Numeral

/-!
# Reading commands

A line names a command, and the thread it is about where the command takes one.
-/

namespace MixedStack.Shell

inductive Refusal where
  | unbalanced (line : String)
  | badThread (word : String)
  | tooMany (name : String)
  | noArguments (name : String)
  | unknown (name : String)
  deriving DecidableEq, Repr

def Refusal.message : Refusal → String
  | unbalanced line => "unbalanced quotes in '" ++ line ++ "'"
  | badThread word => "invalid thread id '" ++ word ++ "'"
  | tooMany name => "too many arguments to '" ++ name ++ "'"
  | noArguments name => "'" ++ name ++ "' takes no arguments"
  | unknown name => "unknown command '" ++ name ++ "', try 'help'"

/-- The thread that arguments name, if they name one. -/
def thread? (name : String) : List String → Except Refusal (Option ThreadId)
  | [] => .ok none
  | [word] =>
    match Text.word? 10 word.toList with
    | some thread => .ok (some thread)
    | none => .error (.badThread word)
  | _ => .error (.tooMany name)

/-- A command that takes no arguments. -/
def plain (name : String) (command : Command) (arguments : List String) : Except Refusal Command :=
  if arguments.isEmpty then .ok command else .error (.noArguments name)

/-- The command of a name and its arguments. -/
def command (name : String) (arguments : List String) : Except Refusal Command :=
  if name ∈ ["bt", "backtrace", "where"] then return .backtrace (← thread? name arguments)
  else if name = "thread" then
    return match ← thread? name arguments with
      | some thread => .select thread
      | none => .threads
  else if name ∈ ["continue", "c"] then plain name .resume arguments
  else if name = "reload" then plain name .reload arguments
  else if name = "vm-frames" then plain name .chain arguments
  else if name = "help" then plain name .help arguments
  else if name ∈ ["quit", "exit", "q"] then plain name .quit arguments
  else .error (.unknown name)

/-- The command of a line, none if the line is blank or a comment. -/
def parse (line : String) : Except Refusal (Option Command) :=
  let cs := line.toList
  if isIdle cs then .ok none
  else
    match words? cs with
    | none => .error (.unbalanced (String.ofList (Text.trim cs)))
    | some [] => .ok none
    | some (name :: arguments) => return some (← command name arguments)

end MixedStack.Shell
