import MixedStack.Json.Value
import MixedStack.Text.Numeral

/-!
# String literals

A string between double quotes. Reading starts behind the opening quote; it undoes escapes, joins
the two halves of a character written as a surrogate pair, and refuses a half that stands alone and
control characters as they are. Writing escapes what must be escaped and nothing else.
-/

namespace MixedStack.Json

/-- What is wrong with a text that should go on with four hexadecimal digits: it is too short for
them in UTF-8, or they are none. -/
def hexFlaw (cs : List Char) : Flaw :=
  if (cs.take 4).foldr (fun c size => c.utf8Size + size) 0 < 4 then .truncated else .malformed

/-- The number that four hexadecimal digits spell. -/
def fourHex : List Char → Except Flaw (Nat × List Char)
  | a :: b :: c :: d :: rest =>
    match Text.digits? 16 0 [a, b, c, d] with
    | some n => .ok (n, rest)
    | none => .error .malformed
  | cs => .error (hexFlaw cs)

/-- The second half of a surrogate pair, a full escape. -/
def lowSurrogate (high : Nat) : List Char → Except Flaw (Char × List Char)
  | [] => .error .truncated
  | ['\\'] => .error .truncated
  | '\\' :: 'u' :: cs => do
    let (low, rest) ← fourHex cs
    if 0xdc00 ≤ low ∧ low ≤ 0xdfff then
      return (Char.ofNat ((high - 0xd800) * 0x400 + (low - 0xdc00) + 0x10000), rest)
    else .error .malformed
  | _ => .error .malformed

/-- The character that a number of four hexadecimal digits begins. -/
def unicodeEscape (cs : List Char) : Except Flaw (Char × List Char) := do
  let (n, rest) ← fourHex cs
  if 0xdc00 ≤ n ∧ n ≤ 0xdfff then .error .malformed
  else if 0xd800 ≤ n ∧ n ≤ 0xdbff then lowSurrogate n rest
  else return (Char.ofNat n, rest)

/-- The character that an escape stands for, read behind its backslash. -/
def escape : List Char → Except Flaw (Char × List Char)
  | [] => .error .truncated
  | c :: cs =>
    if c = '\x22' ∨ c = '\\' ∨ c = '/' then .ok (c, cs)
    else if c = 'b' then .ok ('\x08', cs)
    else if c = 'f' then .ok ('\x0c', cs)
    else if c = 'n' then .ok ('\n', cs)
    else if c = 'r' then .ok ('\r', cs)
    else if c = 't' then .ok ('\t', cs)
    else if c = 'u' then unicodeEscape cs
    else .error .malformed

/-- The characters up to the closing quote, and the text behind it. Every character read costs one
of `ticks`, and a text has enough of them in itself. -/
def charsWithin : (ticks : List Char) → List Char → Except Flaw (List Char × List Char)
  | [], _ => .error .truncated
  | _ :: _, [] => .error .truncated
  | _ :: ticks, c :: cs =>
    if c = '\x22' then .ok ([], cs)
    else if c.toNat < 0x20 then .error .malformed
    else do
      let (c, rest) ← if c = '\\' then escape cs else .ok (c, cs)
      let (more, rest) ← charsWithin ticks rest
      return (c :: more, rest)

/-- The string up to the closing quote, and the text behind it. -/
def string (cs : List Char) : Except Flaw (String × List Char) := do
  let (read, rest) ← charsWithin cs cs
  return (String.ofList read, rest)

/-- A character as a literal holds it. -/
def encodedChar (c : Char) : List Char :=
  if c = '\x22' then ['\\', '\x22']
  else if c = '\\' then ['\\', '\\']
  else if c = '\x08' then ['\\', 'b']
  else if c = '\x0c' then ['\\', 'f']
  else if c = '\n' then ['\\', 'n']
  else if c = '\r' then ['\\', 'r']
  else if c = '\t' then ['\\', 't']
  else if c.toNat < 0x20 then
    ['\\', 'u', '0', '0', Nat.digitChar (c.toNat / 16), Nat.digitChar (c.toNat % 16)]
  else [c]

/-- A string between its quotes. -/
def encoded (s : String) : List Char :=
  '\x22' :: (s.toList.flatMap encodedChar ++ ['\x22'])

end MixedStack.Json
