import Mathlib.Logic.Basic
import MixedStack.CallRecord
import MixedStack.Proofs.Boxing

/-!
# Records that decode

A record decodes if the four words below a frame pointer can be read and carry the tags of a call
(`CallRecord.readBelow_eq_ok`). Then the frame pointer leaves room for them, and what they name lies
within the 48 bits of a payload.
-/

namespace MixedStack

namespace Slot

theorem payload_lt (s : Slot) : s.payload.toNat < 2 ^ 48 := by
  rw [payload, toNat_and_payloadMask]
  omega

theorem expect_eq_ok {s : Slot} {t : Tag} {p : Word} :
    s.expect t = .ok p ↔ s.tag = t ∧ t ≠ .double ∧ s.payload = p := by
  unfold expect
  split
  case isTrue h => simp [h]
  case isFalse h =>
    refine ⟨nofun, fun hp => ?_⟩
    exact absurd ⟨hp.1, hp.2.1⟩ h

theorem readTagged_eq_ok {h : Host} {addr : Word} {t : Tag} {p : Word} :
    (readTagged h addr t).outcome.value = .ok p
      ↔ ∃ w, h.readWord addr = .ok w ∧ (Slot.mk w).expect t = .ok p := by
  unfold readTagged Slot.read Attempt.readWord
  simp only [Attempt.bind_eq_ok, Attempt.map_eq_ok, Attempt.ofHost_eq_ok, Traced.readWord,
    exists_exists_and_eq_and]
  refine exists_congr fun w => and_congr_right fun _ => ?_
  rcases (Slot.mk w).expect t with found | payload <;> simp

end Slot

namespace CallRecord

variable {h : Host} {bp : Word}

theorem toNat_distance {count : Nat} (hcount : count ≤ slots) :
    (UInt64.ofNat (distance count)).toNat = distance count := by
  unfold slots at hcount
  unfold distance Slot.size
  rw [UInt64.toNat_ofNat', Nat.mod_eq_of_lt (by omega)]

theorem slotBelow_eq_ok {count : Nat} {addr : Word} :
    slotBelow bp count = .ok addr
      ↔ UInt64.ofNat (distance count) ≤ bp ∧ bp - UInt64.ofNat (distance count) = addr := by
  unfold slotBelow Word.sub?
  by_cases hle : UInt64.ofNat (distance count) ≤ bp <;> simp [hle]

theorem readField_eq_ok {count : Nat} {t : Tag} {p : Word} :
    (readField h bp count t).outcome.value = .ok p
      ↔ UInt64.ofNat (distance count) ≤ bp
        ∧ ∃ w, h.readWord (bp - UInt64.ofNat (distance count)) = .ok w
          ∧ (Slot.mk w).expect t = .ok p := by
  unfold readField
  simp only [Attempt.bind_eq_ok, Attempt.value_outcome_settled, slotBelow_eq_ok,
    Slot.readTagged_eq_ok]
  constructor
  · rintro ⟨addr, ⟨hroom, rfl⟩, hw⟩
    exact ⟨hroom, hw⟩
  · rintro ⟨hroom, hw⟩
    exact ⟨_, ⟨hroom, rfl⟩, hw⟩

theorem readBelow_eq_ok {r : CallRecord} :
    (readBelow h bp).outcome.value = .ok r
      ↔ (readField h bp 1 .uint48).outcome.value = .ok r.callType
        ∧ (readField h bp 2 .pointer).outcome.value = .ok r.callerBp
        ∧ (readField h bp 3 .pointer).outcome.value = .ok r.callerIp
        ∧ (readField h bp 4 .uint48).outcome.value = .ok r.function := by
  unfold readBelow
  simp only [Attempt.bind_eq_ok, Attempt.value_outcome_pure, Except.ok.injEq]
  constructor
  · rintro ⟨callType, h1, callerBp, h2, callerIp, h3, function, h4, rfl⟩
    exact ⟨h1, h2, h3, h4⟩
  · rintro ⟨h1, h2, h3, h4⟩
    exact ⟨_, h1, _, h2, _, h3, _, h4, rfl⟩

/-- A record lies above the first address, and names a caller within the bits of a payload. -/
theorem bounds_of_readBelow {r : CallRecord} (hr : (readBelow h bp).outcome.value = .ok r) :
    32 ≤ bp.toNat ∧ r.callerBp.toNat < 2 ^ 48 := by
  obtain ⟨-, hbp, -, hfunction⟩ := readBelow_eq_ok.1 hr
  obtain ⟨hroom, -⟩ := readField_eq_ok.1 hfunction
  obtain ⟨-, w, -, hexpect⟩ := readField_eq_ok.1 hbp
  obtain ⟨-, -, hpayload⟩ := Slot.expect_eq_ok.1 hexpect
  refine ⟨UInt64.le_iff_toNat_le.1 hroom, ?_⟩
  rw [← hpayload]
  exact Slot.payload_lt ⟨w⟩

/-- The caller's stack ends where the record begins. -/
theorem toNat_callerSp (hroom : 32 ≤ bp.toNat) : (callerSp bp).toNat + 32 = bp.toNat := by
  have hle : (32 : Word) ≤ bp := UInt64.le_iff_toNat_le.2 hroom
  show (bp - 32).toNat + 32 = bp.toNat
  rw [UInt64.toNat_sub_of_le _ _ hle]
  exact Nat.sub_add_cancel hroom

end CallRecord

end MixedStack
