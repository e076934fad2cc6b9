import Mathlib.Algebra.Ring.Int.Defs
import MixedStack.Proofs.Records

/-!
# Tags and payloads

A word is a double or a payload behind one tag. Boxing the payload of a boxed word under its tag
gives the word back (`Slot.boxed_tag_payload`), and what is boxed keeps 48 bits of the payload, and
the tag unless its bits are those of another one (`Slot.tag_boxed_of_canonical`). A signed integer is
read as the one integer that 48 bits hold and that has the same lower bits (`Slot.int48?_boxed`).
-/

namespace MixedStack

namespace Tag

/-- No other tag has its bits. -/
def Canonical : Tag → Prop
  | unknown bits => 0xfffd ≤ bits
  | _ => True

/-- A tag with a name of its own. -/
def Named (t : Tag) : Prop :=
  t = uint48 ∨ t = pointer ∨ t = int48 ∨ t = reference

theorem ofBits_eq_double_iff {bits : UInt16} : ofBits bits = double ↔ bits < 0xfff9 := by
  unfold ofBits
  split_ifs <;> simp_all

theorem bits?_ofBits {bits : UInt16} (h : ¬ bits < 0xfff9) : (ofBits bits).bits? = some bits := by
  unfold ofBits
  split_ifs <;> simp_all [bits?]

theorem named_ofBits {bits : UInt16} (hlow : ¬ bits < 0xfff9) (hhigh : bits < 0xfffd) :
    (ofBits bits).Named := by
  unfold ofBits Named
  grind

theorem ofBits_of_canonical {t : Tag} {bits : UInt16} (ht : t.bits? = some bits)
    (hc : t.Canonical) : ofBits bits = t := by
  cases t with
  | double => cases ht
  | unknown n =>
    obtain rfl : n = bits := Option.some.inj ht
    -- behind the bits of all named tags
    have hn : 0xfffd ≤ n := hc
    unfold ofBits
    grind
  | uint48 | pointer | int48 | reference =>
    cases ht
    rfl

theorem exists_bits? {t : Tag} (ht : t ≠ double) : ∃ bits, t.bits? = some bits := by
  cases t with
  | double => exact absurd rfl ht
  | uint48 | pointer | int48 | reference | unknown => exact ⟨_, rfl⟩

end Tag

namespace Slot

variable {s : Slot}

def upper (s : Slot) : Nat := s.word.toNat / 2 ^ 48

def lower (s : Slot) : Nat := s.word.toNat % 2 ^ 48

theorem toNat_payload (s : Slot) : s.payload.toNat = s.lower :=
  toNat_and_payloadMask s.word

theorem tag_eq_double_iff : s.tag = .double ↔ s.upper < 0xfff9 := by
  rw [tag, Tag.ofBits_eq_double_iff, UInt16.lt_iff_toNat_lt, tagBits_toNat]
  rfl

theorem bits?_tag (h : 0xfff9 ≤ s.upper) :
    ∃ bits, s.tag.bits? = some bits ∧ bits.toNat = s.upper := by
  refine ⟨_, Tag.bits?_ofBits ?_, tagBits_toNat s⟩
  rw [← Tag.ofBits_eq_double_iff]
  exact fun ht => absurd (tag_eq_double_iff.1 ht) (by omega)

theorem boxed_tag_payload (h : 0xfff9 ≤ s.upper) : boxed s.tag s.payload = s := by
  obtain ⟨bits, ht, hbits⟩ := bits?_tag h
  have hword : (boxed s.tag s.payload).word.toNat = s.word.toNat := by
    rw [toNat_boxed ht, hbits, toNat_payload, upper, lower]
    omega
  exact congrArg Slot.mk (UInt64.toNat_inj.1 hword)

theorem expect_eq_ok_iff {t : Tag} {p : Word} :
    s.expect t = .ok p ↔ 0xfff9 ≤ s.upper ∧ t = s.tag ∧ p = s.payload := by
  rw [expect_eq_ok]
  constructor
  · rintro ⟨rfl, hne, rfl⟩
    rw [ne_eq, tag_eq_double_iff] at hne
    exact ⟨by omega, rfl, rfl⟩
  · rintro ⟨h, rfl, rfl⟩
    exact ⟨rfl, fun ht => absurd (tag_eq_double_iff.1 ht) (by omega), rfl⟩

theorem tag_boxed_of_canonical {t : Tag} (ht : t ≠ .double) (hc : t.Canonical) (p : Word) :
    (boxed t p).tag = t := by
  obtain ⟨bits, hbits⟩ := Tag.exists_bits? ht
  rw [tag_boxed hbits, Tag.ofBits_of_canonical hbits hc]

/-- The integers that 48 bits hold. -/
def Int48 (r : Int) : Prop := -2 ^ 47 ≤ r ∧ r < 2 ^ 47

theorem Int48.eq {r r' : Int} (hr : Int48 r) (hr' : Int48 r')
    (h : r % 2 ^ 48 = r' % 2 ^ 48) : r = r' := by
  obtain ⟨hlow, hhigh⟩ := hr
  obtain ⟨hlow', hhigh'⟩ := hr'
  omega

/-- Shifting a payload up and down again extends its highest bit. -/
theorem toInt_shifts {p : Word} (hp : p.toNat < 2 ^ 48) :
    ((p <<< 16).toInt64 >>> 16).toInt
      = if p.toNat < 2 ^ 47 then (p.toNat : Int) else p.toNat - 2 ^ 48 := by
  have hup : (p <<< 16).toBitVec.toNat = p.toNat * 2 ^ 16 := by
    show (p <<< 16).toNat = _
    rw [UInt64.toNat_shiftLeft, show (16 : UInt64).toNat % 64 = 16 from rfl, Nat.shiftLeft_eq]
    omega
  have hdown : ((p <<< 16).toInt64 >>> 16).toInt
      = (p <<< 16).toInt64.toBitVec.toInt >>> (16 : Nat) := by
    have hsixteen : ((16 : Int64).toBitVec.smod 64).toNat = 16 := by decide
    rw [← Int64.toInt_toBitVec, Int64.toBitVec_shiftRight, BitVec.sshiftRight', hsixteen,
      BitVec.toInt_sshiftRight]
  rw [hdown, UInt64.toBitVec_toInt64, BitVec.toInt_eq_toNat_cond, hup, Int.shiftRight_eq_div_pow]
  split_ifs <;> omega

theorem int48?_eq_shifts (s : Slot) :
    s.int48?
      = (s.expect .int48).toOption.map fun p : Word => ((p <<< 16).toInt64 >>> 16).toInt := by
  rcases h : s.expect .int48 with found | p
  · simp [int48?, h, Except.toOption]
  · have hp : p.toNat < 2 ^ 48 := (expect_eq_ok_iff.1 h).2.2 ▸ payload_lt s
    simp only [int48?, h, Except.toOption, Option.map_some, toInt_shifts hp]
    rfl

theorem toInt_mod (v : Int64) : (v.toUInt64.toNat : Int) % 2 ^ 64 = v.toInt % 2 ^ 64 := by
  have h := BitVec.toInt_eq_toNat_cond v.toBitVec
  rw [Int64.toInt_toBitVec, Int64.toNat_toBitVec] at h
  split_ifs at h <;> omega

/-- A signed integer is read back up to what 48 bits do not hold of it. -/
theorem int48?_boxed (v : Int64) :
    ∃ r, (boxed .int48 v.toUInt64).int48? = some r ∧ Int48 r ∧ r % 2 ^ 48 = v.toInt % 2 ^ 48 := by
  have hexpect := expect_boxed (t := .int48) rfl rfl v.toUInt64
  have hp := toNat_and_payloadMask v.toUInt64
  have hv := toInt_mod v
  have hread : (boxed .int48 v.toUInt64).int48?
      = some ((((v.toUInt64 &&& payloadMask) <<< 16).toInt64 >>> 16).toInt) := by
    rw [int48?_eq_shifts, hexpect]
    rfl
  refine ⟨_, hread, ?_⟩
  rw [toInt_shifts (by omega), hp, Int48]
  split_ifs <;> omega

/-- A slot is read under its own tag and no other, unless its upper bits are those of a double, and
boxing what was read gives it back. What is boxed under a tag has that tag and 48 bits of the
payload; only a tag that has the bits of another, or of a double, gives way to it. A signed integer
is read as the one that 48 bits hold and that agrees with it in the lower 48. -/
theorem slots_unambiguous :
    (∀ (s : Slot) (t : Tag) (p : Word),
        s.expect t = .ok p ↔ 0xfff9 ≤ s.upper ∧ t = s.tag ∧ p = s.payload)
      ∧ (∀ s : Slot, s.payload.toNat = s.lower ∧ (0xfff9 ≤ s.upper → boxed s.tag s.payload = s))
      ∧ (∀ (t : Tag) (p : Word), t ≠ .double →
        (boxed t p).payload.toNat = p.toNat % 2 ^ 48
          ∧ (t.Canonical → (boxed t p).tag = t)
          ∧ ∀ n, t = .unknown n → n < 0xfffd →
            n < 0xfff9 ∧ (boxed t p).tag = .double
              ∨ (boxed t p).tag.Named ∧ (boxed t p).tag.bits? = some n)
      ∧ ∀ v : Int64, ∃ r, (boxed .int48 v.toUInt64).int48? = some r
        ∧ Int48 r ∧ r % 2 ^ 48 = v.toInt % 2 ^ 48
        ∧ (∀ r', Int48 r' → r' % 2 ^ 48 = v.toInt % 2 ^ 48 → r' = r)
        ∧ (r = v.toInt ↔ Int48 v.toInt) := by
  refine ⟨fun s t p => expect_eq_ok_iff, fun s => ⟨toNat_payload s, boxed_tag_payload⟩,
    fun t p ht => ⟨?_, fun hc => tag_boxed_of_canonical ht hc p, ?_⟩, fun v => ?_⟩
  · obtain ⟨bits, hbits⟩ := Tag.exists_bits? ht
    rw [payload_boxed hbits, toNat_and_payloadMask]
  · rintro n rfl hhigh
    rw [tag_boxed (t := .unknown n) rfl]
    by_cases hlow : n < 0xfff9
    · exact .inl ⟨hlow, Tag.ofBits_eq_double_iff.2 hlow⟩
    · exact .inr ⟨Tag.named_ofBits hlow hhigh, Tag.bits?_ofBits hlow⟩
  · obtain ⟨r, hr, hfits, hmod⟩ := int48?_boxed v
    refine ⟨r, hr, hfits, hmod, fun r' hr' h => hr'.eq hfits (h.trans hmod.symm), ?_, ?_⟩
    · rintro rfl
      exact hfits
    · exact fun hv => hfits.eq hv hmod

/-- A word whose tag has no name, and a tag that has the bits of a pointer. -/
theorem slots_unambiguous_alias :
    0xfff9 ≤ (⟨0xfffe000000000007⟩ : Slot).upper
      ∧ boxed (Slot.mk 0xfffe000000000007).tag (Slot.mk 0xfffe000000000007).payload
        = ⟨0xfffe000000000007⟩
      ∧ Tag.unknown 0xfffa ≠ .double ∧ (0xfffa : UInt16) < 0xfffd
      ∧ (boxed (.unknown 0xfffa) 0xabcd000000004000).payload.toNat = 0x4000
      ∧ (boxed (.unknown 0xfffa) 0xabcd000000004000).tag.bits? = some 0xfffa
      ∧ Tag.Canonical .int48 ∧ (boxed .int48 0).tag = .int48 := by
  obtain ⟨-, hslots, hboxed, -⟩ := slots_unambiguous
  have hupper : 0xfff9 ≤ (⟨0xfffe000000000007⟩ : Slot).upper := by decide
  obtain ⟨hpayload, -, halias⟩ := hboxed (.unknown 0xfffa) 0xabcd000000004000 (by decide)
  refine ⟨hupper, (hslots _).2 hupper, by decide, by decide, hpayload, ?_, trivial,
    (hboxed .int48 0 (by decide)).2.1 trivial⟩
  rcases halias 0xfffa rfl (by decide) with ⟨hlow, -⟩ | ⟨-, hbits⟩
  · exact absurd hlow (by decide)
  · exact hbits

end Slot

end MixedStack
