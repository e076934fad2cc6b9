import MixedStack.Text.Blank

/-!
# Words of a line

A line is cut into words at spaces, tabs and line feeds. Quotes and backslashes keep such characters
in a word, and a `#` where a word could begin hides the rest of its line.
-/

namespace MixedStack.Shell

/-- Where a character stands. -/
inductive Place where
  | between
  | comment
  /-- In a word, outside quotes. -/
  | bare
  /-- Behind a backslash outside quotes. -/
  | escaped
  | single
  | double
  /-- Behind a backslash in double quotes. -/
  | doubleEscaped
  deriving DecidableEq, Repr

def isSeparator (c : Char) : Bool :=
  c = ' ' || c = '\t' || c = '\n'

/-- What a character of a word does to the word, outside quotes. -/
def bareStep (held : List Char) (c : Char) : Place × List Char :=
  if c = '\x22' then (.double, held)
  else if c = '\x27' then (.single, held)
  else if c = '\\' then (.escaped, held)
  else (.bare, held ++ [c])

/-- What an escaped character in double quotes stands for. A backslash that escapes nothing is
kept. -/
def doubleEscape (c : Char) : List Char :=
  if c = '$' ∨ c = '\x60' ∨ c = '\x22' ∨ c = '\\' then [c]
  else if c = '\n' then []
  else ['\\', c]

/-- The words of a line from some place on, where `held` is the word so far. A line that ends in
quotes or behind a backslash has none. -/
def wordsFrom : Place → (held : List Char) → List Char → Option (List (List Char))
  | .between, _, [] => some []
  | .comment, _, [] => some []
  | .bare, held, [] => some [held]
  | .escaped, _, [] => none
  | .single, _, [] => none
  | .double, _, [] => none
  | .doubleEscaped, _, [] => none
  | .between, _, c :: cs =>
    if isSeparator c then wordsFrom .between [] cs
    else if c = '#' then wordsFrom .comment [] cs
    else
      let (place, held) := bareStep [] c
      wordsFrom place held cs
  | .comment, _, c :: cs => wordsFrom (if c = '\n' then .between else .comment) [] cs
  | .bare, held, c :: cs =>
    if isSeparator c then (wordsFrom .between [] cs).map (held :: ·)
    else
      let (place, held) := bareStep held c
      wordsFrom place held cs
  | .escaped, held, c :: cs => wordsFrom .bare (if c = '\n' then held else held ++ [c]) cs
  | .single, held, c :: cs =>
    if c = '\x27' then wordsFrom .bare held cs else wordsFrom .single (held ++ [c]) cs
  | .double, held, c :: cs =>
    if c = '\x22' then wordsFrom .bare held cs
    else if c = '\\' then wordsFrom .doubleEscaped held cs
    else wordsFrom .double (held ++ [c]) cs
  | .doubleEscaped, held, c :: cs => wordsFrom .double (held ++ doubleEscape c) cs

def words? (cs : List Char) : Option (List String) :=
  (wordsFrom .between [] cs).map fun ws => ws.map String.ofList

/-- Whether a line is blank or a comment. -/
def isIdle (cs : List Char) : Bool :=
  match Text.trim cs with
  | [] => true
  | c :: _ => c = '#'

end MixedStack.Shell
