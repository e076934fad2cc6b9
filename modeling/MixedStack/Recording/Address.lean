import MixedStack.Json.Decode
import MixedStack.Text.Blank
import MixedStack.Text.Numeral

/-!
# Addresses in documents

A document gives an address as a number or as a text. The text may have blanks around it and
underscores in it; `0x` in front makes it hexadecimal.
-/

namespace MixedStack.Address

/-- Digits without the underscores that group them. -/
def ungrouped (cs : List Char) : List Char :=
  cs.filter fun c => c ≠ '_'

/-- The address that a text without blanks around it gives. -/
def ofTrimmed? : List Char → Option Word
  | '0' :: 'x' :: cs => Text.word? 16 (ungrouped cs)
  | '0' :: 'X' :: cs => Text.word? 16 (ungrouped cs)
  | cs => Text.word? 10 (ungrouped cs)

def ofText? (s : String) : Option Word :=
  ofTrimmed? (Text.trim s.toList)

/-- The address that a value gives. A flaw anywhere in the value comes before all else. -/
def read (v : Json.Value) : Json.Decoded Word :=
  match v.flaw? with
  | some flaw => .error (.flawed flaw)
  | none =>
    match v with
    | .natural n => .ok n
    | .text s =>
      match ofText? s with
      | some w => .ok w
      | none => .error (.mismatch (.badAddress s))
    | _ => .error (.mismatch .noAddress)

def toValue (w : Word) : Json.Value := .text w.hex

end MixedStack.Address
