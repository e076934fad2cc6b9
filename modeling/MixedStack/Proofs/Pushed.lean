import MixedStack.Proofs.Chain
import MixedStack.Proofs.Records

/-!
# Pushed calls are unwound again

A call pushes four boxed words below the frame pointer of the callee. A managed stack whose calls
lie in memory as they were pushed (`ManagedStack.HeldBy`) is unwound call by call, from the
innermost activation to the outermost, and ends at the registers of the dispatch loop
(`Unwinder.answer_of_pushed`).
-/

namespace MixedStack

namespace CallRecord

/-- The words that a call pushes below the frame pointer of the callee. -/
structure PushedAt (h : Host) (bp : Word) (r : CallRecord) : Prop where
  function : h.readWord (bp - 32) = .ok (Slot.boxed .uint48 r.function).word
  callerIp : h.readWord (bp - 24) = .ok (Slot.boxed .pointer r.callerIp).word
  callerBp : h.readWord (bp - 16) = .ok (Slot.boxed .pointer r.callerBp).word
  callType : h.readWord (bp - 8) = .ok (Slot.boxed .uint48 r.callType).word

variable {h : Host} {bp : Word}

/-- A pushed record reads back, its words cut down to the bits of a payload. -/
theorem readBelow_of_pushedAt {r : CallRecord} (hr : r.PushedAt h bp) (hbp : 32 ≤ bp.toNat) :
    (readBelow h bp).outcome.value = .ok
      ⟨r.function &&& Slot.payloadMask, r.callerIp &&& Slot.payloadMask,
        r.callerBp &&& Slot.payloadMask, r.callType &&& Slot.payloadMask⟩ := by
  have hle : ∀ count, count ≤ 4 → UInt64.ofNat (distance count) ≤ bp := by
    intro count hcount
    have hd : distance count ≤ 32 := by
      simp only [distance, Slot.size]
      omega
    rw [UInt64.le_iff_toNat_le, UInt64.toNat_ofNat', Nat.mod_eq_of_lt (by omega)]
    omega
  have hu : ∀ p, (Slot.boxed .uint48 p).expect .uint48 = .ok (p &&& Slot.payloadMask) :=
    Slot.expect_boxed rfl (by decide)
  have hp : ∀ p, (Slot.boxed .pointer p).expect .pointer = .ok (p &&& Slot.payloadMask) :=
    Slot.expect_boxed rfl (by decide)
  refine readBelow_eq_ok.2 ⟨?_, ?_, ?_, ?_⟩
  · exact readField_eq_ok.2 ⟨hle 1 (by decide), _, hr.callType, hu _⟩
  · exact readField_eq_ok.2 ⟨hle 2 (by decide), _, hr.callerBp, hp _⟩
  · exact readField_eq_ok.2 ⟨hle 3 (by decide), _, hr.callerIp, hp _⟩
  · exact readField_eq_ok.2 ⟨hle 4 (by decide), _, hr.function, hu _⟩

end CallRecord

/-- Activations `0` to `depth`, from the outermost to the innermost one, each but the first pushed
by a call of the one before. -/
structure ManagedStack where
  depth : Nat
  /-- The frame pointers. The outermost one is the base of the stack. -/
  bp : Nat → Word
  /-- Where each activation is, or goes on once its callee returns. -/
  ip : Nat → Word
  function : Nat → Word
  callType : Nat → Word
  apart : ∀ i < depth, (bp i).toNat + 32 ≤ (bp (i + 1)).toNat
  bp_lt : ∀ i < depth, (bp (i + 1)).toNat < 2 ^ 48
  ip_lt : ∀ i < depth, (ip i).toNat < 2 ^ 48

namespace ManagedStack

variable {h : Host} (s : ManagedStack)

/-- The record of the call by activation `i`. -/
def record (i : Nat) : CallRecord :=
  ⟨s.function (i + 1), s.ip i, s.bp i, s.callType (i + 1)⟩

/-- Every call lies in memory as it was pushed. -/
def HeldBy (h : Host) : Prop :=
  ∀ i < s.depth, (s.record i).PushedAt h (s.bp (i + 1))

/-- What a host is answered that unwinds from activation `i` on, whose stack ends at `sp`, until it
is back at the registers `e`. -/
def unwinds (e : Registers) : (i : Nat) → (sp : Word) → List Unwound
  | 0, sp => [⟨⟨sp, s.ip 0, some (s.bp 0)⟩, e⟩]
  | 1, sp => [⟨⟨sp, s.ip 1, some (s.bp 1)⟩, e⟩]
  | i + 2, sp =>
    ⟨⟨sp, s.ip (i + 2), some (s.bp (i + 2))⟩, ⟨s.ip (i + 1), s.bp (i + 2) - 32, s.bp (i + 1)⟩⟩
      :: unwinds e (i + 1) (s.bp (i + 2) - 32)

theorem length_unwinds (e : Registers) (i : Nat) :
    ∀ sp, (s.unwinds e i sp).length = max i 1 := by
  induction i using Nat.strongRecOn with
  | ind i ih =>
    intro sp
    match i with
    | 0 => rfl
    | 1 => rfl
    | i + 2 =>
      rw [unwinds, List.length_cons, ih (i + 1) (by omega)]
      omega

variable {s}

theorem base_lt {i : Nat} (hi : i < s.depth) : (s.bp 0).toNat < (s.bp (i + 1)).toNat := by
  induction i with
  | zero =>
    have := s.apart 0 hi
    omega
  | succ i ih =>
    have := ih (by omega)
    have := s.apart (i + 1) hi
    omega

theorem readBelow_of_heldBy (hs : s.HeldBy h) {i : Nat} (hi : i < s.depth) :
    ∃ r, (CallRecord.readBelow h (s.bp (i + 1))).outcome.value = .ok r
      ∧ r.callerIp = s.ip i ∧ r.callerBp = s.bp i := by
  have hap := s.apart i hi
  have hlt := s.bp_lt i hi
  refine ⟨_, CallRecord.readBelow_of_pushedAt (hs i hi) (by omega), ?_, ?_⟩
  · exact Slot.and_payloadMask_of_lt (s.ip_lt i hi)
  · exact Slot.and_payloadMask_of_lt (by simp only [record]; omega)

theorem recordBelow?_of_heldBy (hs : s.HeldBy h) {i : Nat} (hi : i + 1 < s.depth) :
    ∃ r, recordBelow? h (s.bp 0) (s.bp (i + 2)) = some r
      ∧ r.callerAt (s.bp (i + 2)) = ⟨s.ip (i + 1), s.bp (i + 2) - 32, s.bp (i + 1)⟩ := by
  obtain ⟨r, hr, hip, hbp⟩ := readBelow_of_heldBy hs hi
  have hlo := base_lt (s := s) (i := i) (by omega)
  have hap : (s.bp (i + 1)).toNat + 32 ≤ (s.bp (i + 2)).toNat := s.apart (i + 1) hi
  have hne : s.bp (i + 2) ≠ s.bp 0 := by
    intro heq
    rw [heq] at hap
    omega
  refine ⟨r, recordBelow?_eq_some.2 ⟨hne, hr, ?_, ?_⟩, ?_⟩
  · rw [hbp, UInt64.lt_iff_toNat_lt]
    exact hlo
  · rw [hbp, UInt64.lt_iff_toNat_lt]
    omega
  · rw [CallRecord.callerAt, hip, hbp]
    rfl

/-- The activation that the base called, and the one at the base, have no caller to go on to. -/
theorem recordBelow?_outermost (hs : s.HeldBy h) {i : Nat} (hi : i ≤ s.depth) (hle : i ≤ 1) :
    recordBelow? h (s.bp 0) (s.bp i) = none := by
  rw [Option.eq_none_iff_forall_ne_some]
  intro r hr
  obtain ⟨hne, hread, hlo, -⟩ := recordBelow?_eq_some.1 hr
  match i with
  | 0 => exact hne rfl
  | 1 =>
    obtain ⟨r', hr', -, hbp⟩ := readBelow_of_heldBy hs hi
    obtain rfl : r' = r := Except.ok.inj (hr'.symm.trans hread)
    exact UInt64.lt_irrefl _ (hbp ▸ hlo)

theorem activations_outermost (hs : s.HeldBy h) {i : Nat} (hi : i ≤ s.depth) (hle : i ≤ 1)
    (n : Nat) (sp : Word) :
    activations h (s.bp 0) n ⟨s.ip i, sp, s.bp i⟩ = [⟨s.ip i, sp, s.bp i⟩] := by
  cases n with
  | zero => rfl
  | succ n => simp only [activations, recordBelow?_outermost hs hi hle]

/-- The chain in memory, and with it what a host is answered, is the stack as it was pushed. -/
theorem handOver_activations (hs : s.HeldBy h) (e : Registers) (i : Nat) :
    ∀ n sp, i ≤ s.depth → i - 1 ≤ n →
      handOver e (activations h (s.bp 0) n ⟨s.ip i, sp, s.bp i⟩) = s.unwinds e i sp := by
  induction i with
  | zero =>
    intro n sp hi _
    rw [activations_outermost hs hi (by omega)]
    rfl
  | succ i ih =>
    intro n sp hi hn
    cases i with
    | zero =>
      rw [activations_outermost hs hi (by omega)]
      rfl
    | succ i =>
      obtain ⟨m, rfl⟩ : ∃ m, n = m + 1 := ⟨n - 1, by omega⟩
      obtain ⟨r, hr, hcaller⟩ := recordBelow?_of_heldBy hs (i := i) (by omega)
      have hrest := ih m (s.bp (i + 2) - 32) (by omega) (by omega)
      simp only [activations, hr, hcaller, handOver_cons_activations, hrest, unwinds]
      rfl

end ManagedStack

namespace Unwinder

/-- A stack that lies in memory as it was pushed is unwound call by call: a new walk answers the
boundary, then each activation down to the one that the base called, which leads back to the
registers of the dispatch loop, and none from then on. -/
theorem answer_of_pushed {p : Replay} {s : Settings} {u : Unwinder} (hu : Reaches s p u)
    (thread : ThreadId) (e : Registers) (st : ManagedStack) (top : Word) (hst : st.HeldBy p.host)
    (hfree : u.walk? thread = none) (hin : p.inBlockOf s.loopSymbol e.rip = true)
    (hc : (ContextView.read p.host s.contextSymbol s.layout).outcome.value
      = .ok ⟨st.ip st.depth, st.bp st.depth, st.bp 0, top⟩)
    (hlimit : st.depth - 1 ≤ s.callerLimit.toNat) (own : Nat → KnownRegisters) (i : Nat) :
    answer p.host thread i own e.known u
        = (⟨⟨top, st.ip st.depth, none⟩, ⟨st.ip st.depth, top, st.bp st.depth⟩⟩
            :: st.unwinds e st.depth top)[i]?
      ∧ ((answer p.host thread i own e.known u).isSome ↔ i < max st.depth 1 + 1) := by
  have hans := answer_of_context hu.serves hfree hin hc own i
  have hstack := ManagedStack.handOver_activations hst e st.depth _ top (Nat.le_refl _) hlimit
  simp only [ContextView.boundary, ContextView.activation, hstack] at hans
  refine ⟨hans, ?_⟩
  rw [hans, Option.isSome_iff_ne_none, ne_eq, List.getElem?_eq_none_iff, List.length_cons,
    ManagedStack.length_unwinds, Nat.not_le]

/-- The stack that `threeCalls` holds. -/
def threeDeep : ManagedStack where
  depth := 3
  bp i := 0x4000 + 0x40 * UInt64.ofNat i
  ip i := [0x700, 0x600, 0x580, 0x500].getD i 0
  function i := UInt64.ofNat i
  callType _ := 0
  apart := by decide
  bp_lt := by decide
  ip_lt := by decide

theorem answer_of_pushed_threeDeep :
    Reaches .standard threeCalls (new .standard)
      ∧ threeDeep.HeldBy threeCalls.host
      ∧ (new .standard).walk? 1 = none
      ∧ threeCalls.inBlockOf Settings.standard.loopSymbol 0x1010 = true
      ∧ (ContextView.read threeCalls.host Settings.standard.contextSymbol
          Settings.standard.layout).outcome.value
        = .ok ⟨threeDeep.ip 3, threeDeep.bp 3, threeDeep.bp 0, 0x40e0⟩
      ∧ threeDeep.depth - 1 ≤ Settings.standard.callerLimit.toNat
      ∧ answer threeCalls.host 1 3 (fun _ => ⟨none, none, none⟩)
          (Registers.known ⟨0x1010, 0x8000, 0x8010⟩) (new .standard)
        = some ⟨⟨0x4060, 0x600, some 0x4040⟩, ⟨0x1010, 0x8000, 0x8010⟩⟩ := by
  have hin : threeCalls.inBlockOf Settings.standard.loopSymbol 0x1010 = true := by decide +kernel
  have hst : threeDeep.HeldBy threeCalls.host := by
    intro i hi
    match i, hi with
    | 0, _ => constructor <;> rfl
    | 1, _ => constructor <;> rfl
    | 2, _ => constructor <;> rfl
  refine ⟨.new threeCalls, hst, rfl, hin, rfl, by decide, ?_⟩
  rw [(answer_of_pushed (.new threeCalls) 1 ⟨0x1010, 0x8000, 0x8010⟩ threeDeep 0x40e0 hst rfl hin
    rfl (by decide) (fun _ => ⟨none, none, none⟩) 3).1]
  decide +kernel

end Unwinder

end MixedStack
