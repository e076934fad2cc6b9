import Mathlib.Algebra.Group.Nat.Defs
import MixedStack.Slot

/-!
# Boxed slots

A boxed slot is its tag times `2 ^ 48` and its payload, of which 48 bits are kept. So a tag reads
back what was boxed under it (`Slot.expect_boxed`), and a payload of 48 bits survives.
-/

namespace MixedStack

namespace Slot

theorem toNat_and_payloadMask (p : Word) : (p &&& payloadMask).toNat = p.toNat % 2 ^ 48 := by
  rw [UInt64.toNat_and, show payloadMask.toNat = 2 ^ 48 - 1 from rfl,
    Nat.and_two_pow_sub_one_eq_mod]

theorem and_payloadMask_of_lt {p : Word} (hp : p.toNat < 2 ^ 48) : p &&& payloadMask = p := by
  apply UInt64.toNat_inj.1
  rw [toNat_and_payloadMask, Nat.mod_eq_of_lt hp]

theorem toNat_boxed {t : Tag} {bits : UInt16} (ht : t.bits? = some bits) (p : Word) :
    (boxed t p).word.toNat = bits.toNat * 2 ^ 48 + p.toNat % 2 ^ 48 := by
  have hbits : bits.toNat < 2 ^ 16 := bits.toNat_lt
  have hword : t.word? = some (bits.toUInt64 <<< UInt64.ofNat Tag.shift) := by
    rw [Tag.word?, ht, Option.map_some]
  have hshift : (bits.toUInt64 <<< UInt64.ofNat Tag.shift).toNat = bits.toNat <<< 48 := by
    rw [UInt64.toNat_shiftLeft, show (UInt64.ofNat Tag.shift).toNat % 64 = 48 from rfl,
      UInt16.toNat_toUInt64, Nat.shiftLeft_eq]
    omega
  simp only [boxed, hword]
  rw [UInt64.toNat_or, toNat_and_payloadMask, hshift,
    ← Nat.shiftLeft_add_eq_or_of_lt (Nat.mod_lt _ (by decide)), Nat.shiftLeft_eq]

theorem tagBits_toNat (s : Slot) :
    (s.word >>> UInt64.ofNat Tag.shift).toUInt16.toNat = s.word.toNat / 2 ^ 48 := by
  have hword : s.word.toNat < 2 ^ 64 := s.word.toNat_lt
  rw [UInt64.toNat_toUInt16, UInt64.toNat_shiftRight,
    show (UInt64.ofNat Tag.shift).toNat % 64 = 48 from rfl, Nat.shiftRight_eq_div_pow]
  omega

theorem tag_boxed {t : Tag} {bits : UInt16} (ht : t.bits? = some bits) (p : Word) :
    (boxed t p).tag = .ofBits bits := by
  have hbits : (boxed t p).word.toNat / 2 ^ 48 = bits.toNat := by
    rw [toNat_boxed ht]
    omega
  rw [tag, UInt16.toNat_inj.1 ((tagBits_toNat (boxed t p)).trans hbits)]

theorem payload_boxed {t : Tag} {bits : UInt16} (ht : t.bits? = some bits) (p : Word) :
    (boxed t p).payload = p &&& payloadMask := by
  apply UInt64.toNat_inj.1
  rw [payload, toNat_and_payloadMask, toNat_and_payloadMask, toNat_boxed ht]
  omega

/-- What was boxed under a tag that stands for itself reads back under it. -/
theorem expect_boxed {t : Tag} {bits : UInt16} (ht : t.bits? = some bits)
    (hself : .ofBits bits = t) (p : Word) : (boxed t p).expect t = .ok (p &&& payloadMask) := by
  have hne : t ≠ .double := by
    rintro rfl
    cases ht
  rw [expect, tag_boxed ht, if_pos ⟨hself, hne⟩, payload_boxed ht]

end Slot

end MixedStack
