import MixedStack.Text.Extender
import MixedStack.Text.Ignorable
import MixedStack.Text.Unprintable

/-!
# Quoted text

How a message quotes a text: between double quotes, with short escapes for the characters that have
one, and the number of any other that would not show by itself: one that leaves no mark, may be
ignored, or joins the character before it.
-/

namespace MixedStack.Text

def numbered (c : Char) : List Char :=
  '\\' :: 'u' :: '\x7b' :: (Nat.toDigits 16 c.toNat ++ ['\x7d'])

/-- The halfwidth marks of voicing, which extend the character before them but have a place of
their own. -/
def isHalfwidthMark (c : Char) : Bool :=
  0xff9e ≤ c.toNat && c.toNat ≤ 0xff9f

/-- A character that would not show by itself. -/
def isHidden (c : Char) : Bool :=
  isUnprintable c || isIgnorable c || (isExtender c && !isHalfwidthMark c)

/-- A character as it stands between quotes. -/
def quotedChar (c : Char) : List Char :=
  if c = '\x00' then ['\\', '0']
  else if c = '\t' then ['\\', 't']
  else if c = '\r' then ['\\', 'r']
  else if c = '\n' then ['\\', 'n']
  else if c = '\\' then ['\\', '\\']
  else if c = '\x22' then ['\\', '\x22']
  else if isHidden c then numbered c
  else [c]

def quoted (s : String) : String :=
  String.ofList ('\x22' :: (s.toList.flatMap quotedChar ++ ['\x22']))

end MixedStack.Text
