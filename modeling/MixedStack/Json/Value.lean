import MixedStack.Word

/-!
# Values of a text

What a text says as far as it can be read. A text that breaks the grammar, or ends too early, still
has a value: all that stands before the place where reading stopped, with the flaw in that place.
So whatever looks at a value from left to right meets its problems in the order of the text.
-/

namespace MixedStack.Json

/-- Why reading stopped: the text breaks the grammar, or it ends too early. -/
inductive Flaw where
  | malformed
  | truncated
  deriving DecidableEq, Repr

/-- A value, as far as it could be read. Lists and objects that a flaw cut off carry the flaw behind
what they hold. -/
inductive Value where
  | null
  | boolean (b : Bool)
  /-- An integer from zero on that fits a word. -/
  | natural (n : Word)
  /-- An integer below zero, from `-2^63` on. -/
  | negative (n : Int)
  /-- Any other number, as it is written. -/
  | real (literal : String)
  | text (s : String)
  | list (items : List Value) (flaw : Option Flaw)
  | object (members : List (String × Value)) (flaw : Option Flaw)
  | broken (flaw : Flaw)

/-- A whole text: its value, and what is wrong with the text behind it. -/
structure Document where
  root : Value
  flaw : Option Flaw

mutual

def Value.flaw? : Value → Option Flaw
  | .list items flaw => (firstFlaw items).or flaw
  | .object members flaw => (firstMemberFlaw members).or flaw
  | .broken flaw => some flaw
  | _ => none

def firstFlaw : List Value → Option Flaw
  | [] => none
  | v :: vs => v.flaw?.or (firstFlaw vs)

def firstMemberFlaw : List (String × Value) → Option Flaw
  | [] => none
  | (_, v) :: ms => v.flaw?.or (firstMemberFlaw ms)

end

end MixedStack.Json
