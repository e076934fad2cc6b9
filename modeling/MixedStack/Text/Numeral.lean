import MixedStack.Word

/-!
# Numerals

How an unsigned word is read from digits: an optional `+`, then one digit or more of the base, and
a value of at most 64 bits. Zeros in front do no harm.
-/

namespace MixedStack.Text

/-- The value of a digit, letters counting from ten in either case. -/
def digitValue? (c : Char) : Option Nat :=
  if '0' ≤ c ∧ c ≤ '9' then some (c.toNat - '0'.toNat)
  else if 'a' ≤ c ∧ c ≤ 'z' then some (c.toNat - 'a'.toNat + 10)
  else if 'A' ≤ c ∧ c ≤ 'Z' then some (c.toNat - 'A'.toNat + 10)
  else none

/-- The value of a digit of a base, none for a character that is no digit of it. -/
def digit? (base : Nat) (c : Char) : Option Nat :=
  (digitValue? c).filter (· < base)

/-- The number that digits go on to spell after those worth `n`. -/
def digits? (base n : Nat) : List Char → Option Nat
  | [] => some n
  | c :: cs => (digit? base c).bind fun d => digits? base (base * n + d) cs

/-- The number that digits spell, none if there are none of them. -/
def natural? (base : Nat) : List Char → Option Nat
  | [] => none
  | c :: cs => digits? base 0 (c :: cs)

/-- The word a numeral stands for. -/
def word? (base : Nat) (cs : List Char) : Option Word :=
  let unsigned := match cs with
    | '+' :: rest => rest
    | cs => cs
  (natural? base unsigned).bind fun n =>
    if n < UInt64.size then some (UInt64.ofNat n) else none

end MixedStack.Text
