/-!
# Words

Addresses, registers and stack slots are 64-bit words. A text shows them in hexadecimal behind
`0x`; memory holds them least significant byte first.
-/

namespace MixedStack

/-- A 64-bit machine word. -/
abbrev Word := UInt64

namespace Word

/-- Lower-case hexadecimal behind `0x`, without leading zeros. -/
def hex (w : Word) : String :=
  String.ofList ('0' :: 'x' :: Nat.toDigits 16 w.toNat)

/-- Lower-case hexadecimal behind `0x`, filled with zeros to `width` digits. -/
def hexFilled (width : Nat) (w : Word) : String :=
  let digits := Nat.toDigits 16 w.toNat
  String.ofList ('0' :: 'x' :: (List.replicate (width - digits.length) '0' ++ digits))

def decimal (w : Word) : String :=
  String.ofList (Nat.toDigits 10 w.toNat)

/-- The eight bytes of a word, least significant first. -/
def bytes (w : Word) : List UInt8 :=
  (List.range 8).map fun i => (w >>> UInt64.ofNat (8 * i)).toUInt8

/-- The word that bytes spell, least significant first. -/
def ofBytes (bs : List UInt8) : Word :=
  UInt64.ofNat (bs.foldr (fun b n => b.toNat + 256 * n) 0)

/-- The sum of two words, none where it passes the last address. -/
def add? (a b : Word) : Option Word :=
  if a.toNat + b.toNat < UInt64.size then some (a + b) else none

/-- The difference of two words, none where it passes zero. -/
def sub? (a b : Word) : Option Word :=
  if b ≤ a then some (a - b) else none

@[simp] theorem length_bytes (w : Word) : w.bytes.length = 8 := by
  simp [bytes]

/-- A word is the bytes it is stored as. -/
theorem ofBytes_bytes (w : Word) : ofBytes w.bytes = w := by
  have h : w.toNat < 2 ^ 64 := w.toNat_lt
  apply UInt64.toNat_inj.1
  simp only [ofBytes, bytes, List.range, List.range.loop, List.map, List.foldr,
    UInt64.toNat_toUInt8, UInt64.toNat_shiftRight, UInt64.toNat_ofNat', Nat.shiftRight_eq_div_pow,
    Nat.reduceMul, Nat.reduceMod, Nat.reducePow]
  omega

end Word

end MixedStack
