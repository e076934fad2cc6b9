import MixedStack.Json.Value
import MixedStack.Text.Numeral

/-!
# Number literals

A number is an optional minus, digits without a zero in front, and optionally a fraction and an
exponent. Integers that a word or a signed word holds are kept as such. Any other number stands for
a double, and one beyond the largest double is no number.

The double is the product of the leading digits and a power of ten, each rounded first and the
product rounded again. Only whether that product overflows matters here.
-/

namespace MixedStack.Json

/-- Leading digits of a number. Digits go in as long as the result fits a word. Answers what was
left out as well. -/
def absorb (n : Nat) : List Char → Nat × List Char
  | [] => (n, [])
  | c :: cs =>
    let next := 10 * n + (c.toNat - '0'.toNat)
    if next < UInt64.size then absorb next cs else (n, c :: cs)

/-- The nearest number whose binary form has at most 53 digits between its first and last one, the
even one of two. -/
def roundedTo53 (n : Nat) : Nat :=
  if n < 1 <<< 53 then n
  else
    let unit := 1 <<< (Nat.log2 n - 52)
    let quotient := n / unit
    let remainder := n % unit
    let up := unit < 2 * remainder ∨ (2 * remainder = unit ∧ quotient % 2 = 1)
    (if up then quotient + 1 else quotient) * unit

/-- The least number that rounds past the largest double. -/
def overflowBound : Nat := (1 <<< 1024) - (1 <<< 970)

/-- The digits of a number behind its sign. -/
structure Digits where
  whole : List Char
  fraction : List Char
  /-- Whether the exponent is below zero, and its digits. -/
  exponent : Option (Bool × List Char)

namespace Digits

/-- The size of the exponent as written, none if it is too large to count. -/
def exponentSize? (ds : Digits) : Option Nat :=
  match ds.exponent with
  | none => some 0
  | some (_, cs) =>
    let n := (Text.digits? 10 0 cs).getD 0
    if n < 1 <<< 31 then some n else none

def exponentNegative (ds : Digits) : Bool :=
  ds.exponent.any (·.1)

/-- Whether the number is below the largest double. -/
def fits (ds : Digits) : Bool :=
  let (n, wholeLeft) := absorb 0 ds.whole
  let (n, fractionLeft) := absorb n ds.fraction
  let scale : Int := wholeLeft.length - (ds.fraction.length - fractionLeft.length : Nat)
  match ds.exponentSize? with
  | none => n = 0 || ds.exponentNegative
  | some size =>
    let power : Int := if ds.exponentNegative then scale - size else scale + size
    n = 0 || power < 0
      || (power ≤ 308 && roundedTo53 n * roundedTo53 (Nat.pow 10 power.toNat) < overflowBound)

/-- A number as it is written. -/
def literal (minus : Bool) (ds : Digits) : String :=
  String.ofList <|
    (if minus then ['-'] else []) ++ ds.whole
      ++ (if ds.fraction = [] then [] else '.' :: ds.fraction)
      ++ match ds.exponent with
        | none => []
        | some (below, cs) => 'e' :: ((if below then ['-'] else []) ++ cs)

def value (minus : Bool) (ds : Digits) : Value :=
  let n := (Text.digits? 10 0 ds.whole).getD 0
  let integer := ds.fraction = [] ∧ ds.exponent = none
  if integer ∧ minus = false ∧ n < UInt64.size then .natural (UInt64.ofNat n)
  else if integer ∧ minus = true ∧ 0 < n ∧ n ≤ 1 <<< 63 then .negative (-(n : Int))
  else if ds.fits then .real (ds.literal minus)
  else .broken .malformed

end Digits

def isDigit (c : Char) : Bool := '0' ≤ c && c ≤ '9'

/-- The digits in front of a text, of which there must be one, and the text behind them. -/
def someDigits (cs : List Char) : Except Flaw (List Char × List Char) :=
  match cs.span isDigit with
  | ([], []) => .error .truncated
  | ([], _ :: _) => .error .malformed
  | (ds, rest) => .ok (ds, rest)

/-- The digits in front of the point, without a zero before another digit. -/
def wholeDigits (cs : List Char) : Except Flaw (List Char × List Char) := do
  let (ds, rest) ← someDigits cs
  match ds with
  | '0' :: _ :: _ => .error .malformed
  | _ => return (ds, rest)

/-- The digits behind a point, if there is one. -/
def fractionDigits : List Char → Except Flaw (List Char × List Char)
  | '.' :: cs => someDigits cs
  | cs => .ok ([], cs)

/-- An exponent, if there is one. -/
def exponentDigits (cs : List Char) : Except Flaw (Option (Bool × List Char) × List Char) :=
  let signed (cs : List Char) := match cs with
    | '-' :: cs => (true, cs)
    | '+' :: cs => (false, cs)
    | cs => (false, cs)
  match cs with
  | c :: cs =>
    if c = 'e' ∨ c = 'E' then do
      let (below, cs) := signed cs
      let (ds, rest) ← someDigits cs
      return (some (below, ds), rest)
    else .ok (none, c :: cs)
  | [] => .ok (none, [])

/-- A number, and the text behind it. -/
def digits (cs : List Char) : Except Flaw (Digits × List Char) := do
  let (whole, rest) ← wholeDigits cs
  let (fraction, rest) ← fractionDigits rest
  let (exponent, rest) ← exponentDigits rest
  return (⟨whole, fraction, exponent⟩, rest)

/-- A number with its sign, and the text behind it. -/
def number (cs : List Char) : Value × List Char :=
  let (minus, unsigned) := match cs with
    | '-' :: cs => (true, cs)
    | cs => (false, cs)
  match digits unsigned with
  | .ok (ds, rest) => (ds.value minus, rest)
  | .error flaw => (.broken flaw, [])

end MixedStack.Json
