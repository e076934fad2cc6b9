/-!
# Lines of bytes

A script is bytes. Its lines end at a line feed, and a carriage return before the line feed does not
belong to the line. Bytes after the last line feed are a line of their own, kept as they are.
-/

namespace MixedStack.Text

/-- The byte that ends a line. -/
def lineFeed : UInt8 := 10

/-- The byte that may stand before it. -/
def carriageReturn : UInt8 := 13

/-- A line without one carriage return at its end. -/
def dropReturn (line : List UInt8) : List UInt8 :=
  if line.getLast? = some carriageReturn then line.dropLast else line

/-- The lines of a script that goes on after `held`, the start of its first line. -/
def linesFrom (held : List UInt8) : List UInt8 → List (List UInt8)
  | [] => if held = [] then [] else [held]
  | b :: bs =>
    if b = lineFeed then dropReturn held :: linesFrom [] bs else linesFrom (held ++ [b]) bs

/-- The lines of a script. -/
def lines (bs : List UInt8) : List (List UInt8) :=
  linesFrom [] bs

/-- The text that bytes encode in UTF-8. -/
def ofUtf8? (bs : List UInt8) : Option String :=
  String.fromUTF8? bs.toByteArray

theorem linesFrom_append (held bs cs : List UInt8) :
    linesFrom held (bs ++ lineFeed :: cs) = linesFrom held (bs ++ [lineFeed]) ++ lines cs := by
  induction bs generalizing held with
  | nil => simp [linesFrom, lines]
  | cons b bs ih =>
    by_cases h : b = lineFeed
    · simp [linesFrom, h, ih]
    · simp [linesFrom, h, ih]

theorem lines_append (bs cs : List UInt8) :
    lines (bs ++ lineFeed :: cs) = lines (bs ++ [lineFeed]) ++ lines cs :=
  linesFrom_append [] bs cs

end MixedStack.Text
