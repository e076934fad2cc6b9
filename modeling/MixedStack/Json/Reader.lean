import MixedStack.Json.Literal
import MixedStack.Json.Number

/-!
# Reading values

A text is read once, from left to right, and reading stops at the first flaw. A value with a flaw
in it takes the rest of the text with it. Brackets may stand inside brackets only so deep.
-/

namespace MixedStack.Json

def isSpace (c : Char) : Bool :=
  c = ' ' || c = '\t' || c = '\n' || c = '\r'

def skipSpace (cs : List Char) : List Char :=
  cs.dropWhile isSpace

/-- A value that is written as one word. -/
def keyword (v : Value) : List Char → List Char → Value × List Char
  | [], cs => (v, cs)
  | _ :: _, [] => (.broken .truncated, [])
  | w :: ws, c :: cs => if c = w then keyword v ws cs else (.broken .malformed, [])

/-- A value without brackets, and the text behind it. -/
def scalar : List Char → Value × List Char
  | [] => (.broken .truncated, [])
  | c :: cs =>
    if c = '\x22' then
      match string cs with
      | .ok (s, rest) => (.text s, rest)
      | .error flaw => (.broken flaw, [])
    else if c = 'n' then keyword .null ['u', 'l', 'l'] cs
    else if c = 't' then keyword (.boolean true) ['r', 'u', 'e'] cs
    else if c = 'f' then keyword (.boolean false) ['a', 'l', 's', 'e'] cs
    else if c = '-' || isDigit c then number (c :: cs)
    else (.broken .malformed, [])

/-- What stands between two brackets as far as it could be read, and the text behind it. -/
structure Run (α : Type) where
  elements : List α
  flaw : Option Flaw
  rest : List Char

namespace Run

variable {α : Type}

/-- A run that stops before its first element. -/
def stopped (flaw : Flaw) : Run α := ⟨[], some flaw, []⟩

def cons (a : α) (r : Run α) : Run α := { r with elements := a :: r.elements }

/-- A run that ends with a closing bracket, or goes on behind a comma. -/
def after (close : Char) (more : List Char → Run α) (cs : List Char) : Run α :=
  match skipSpace cs with
  | [] => stopped .truncated
  | c :: rest =>
    if c = close then ⟨[], none, rest⟩
    else if c = ',' then more rest
    else stopped .malformed

/-- One element or more up to the closing bracket. Every element costs one of `ticks`, and a text
has enough of them in itself. -/
def oneOrMore (close : Char) (element : List Char → Except Flaw (α × List Char)) :
    (ticks : List Char) → List Char → Run α
  | [], _ => stopped .truncated
  | _ :: ticks, cs =>
    match element cs with
    | .error flaw => stopped flaw
    | .ok (a, rest) => (after close (oneOrMore close element ticks) rest).cons a

/-- The elements behind an opening bracket. -/
def many (close : Char) (element : List Char → Except Flaw (α × List Char)) (cs : List Char) :
    Run α :=
  match skipSpace cs with
  | [] => stopped .truncated
  | c :: rest =>
    if c = close then ⟨[], none, rest⟩ else oneOrMore close element cs (c :: rest)

end Run

/-- The value behind the colon that has to follow a key. -/
def behindColon (value : List Char → Value × List Char) (cs : List Char) : Value × List Char :=
  match skipSpace cs with
  | [] => (.broken .truncated, [])
  | c :: rest => if c = ':' then value rest else (.broken .malformed, [])

def member (value : List Char → Value × List Char) (cs : List Char) :
    Except Flaw ((String × Value) × List Char) :=
  match skipSpace cs with
  | [] => .error .truncated
  | c :: rest =>
    if c = '\x22' then do
      let (key, rest) ← string rest
      let (v, rest) := behindColon value rest
      return ((key, v), rest)
    else .error .malformed

/-- A value behind spaces, and the text behind it. Brackets stand at most `depth` deep. -/
def value : (depth : Nat) → List Char → Value × List Char
  | 0, cs => scalar (skipSpace cs)
  | depth + 1, cs =>
    match skipSpace cs with
    | [] => scalar []
    | c :: rest =>
      if c = '[' then
        let run := Run.many ']' (fun cs => .ok (value depth cs)) rest
        (.list run.elements run.flaw, run.rest)
      else if c = '\x7b' then
        let run := Run.many '\x7d' (member (value depth)) rest
        (.object run.elements run.flaw, run.rest)
      else scalar (c :: rest)

namespace Document

/-- A whole text. Only spaces may follow its value. -/
def ofText (depth : Nat) (cs : List Char) : Document :=
  let (root, rest) := value depth cs
  ⟨root, if skipSpace rest = [] then none else some .malformed⟩

/-- How deep brackets stand in a document at most. -/
def depthLimit : Nat := 127

end Document

end MixedStack.Json
