import MixedStack.Proofs.Reads

/-!
# Regions that overlap

A read takes all its bytes from one region. So a byte that two regions hold is answered from the one
or from the other, depending on what else is asked for: a read that reaches beyond a region of the
stop is answered from memory behind it, the bytes of that region included. Reads agree on all bytes
if the regions do that are read at all, and only then. What lies within a region of the stop is
answered from the stop (`Replay.reads_layered`).
-/

namespace MixedStack

section Find

variable {α : Type} {P Q : α → Bool} {xs : List α} {x : α}

/-- The first with a property is the first with any stronger one that it has. -/
theorem find?_of_imp (hx : xs.find? P = some x) (himp : ∀ y, Q y → P y) (hQ : Q x) :
    xs.find? Q = some x := by
  obtain ⟨-, before, behind, hxs, hbefore⟩ := List.find?_eq_some_iff_append.1 hx
  refine List.find?_eq_some_iff_append.2 ⟨hQ, before, behind, hxs, fun y hy => ?_⟩
  have hP := hbefore y hy
  simp only [Bool.not_eq_true'] at hP ⊢
  exact Bool.eq_false_iff.2 fun h => Bool.eq_false_iff.1 hP (himp y h)

end Find

namespace Region

/-- The byte at an address. -/
def byte? (r : Region) (x : Nat) : Option UInt8 :=
  if r.address.toNat ≤ x then r.bytes[x - r.address.toNat]? else none

/-- The regions hold the same bytes where they overlap. -/
def Agree (r r' : Region) : Prop :=
  ∀ x b b', r.byte? x = some b → r'.byte? x = some b' → b = b'

variable {r r' : Region} {addr : Word} {len : Nat}

theorem covers_iff :
    r.Covers addr len ↔ r.address.toNat ≤ addr.toNat
      ∧ addr.toNat + len ≤ r.address.toNat + 8 * r.words.length := by
  unfold Covers
  rw [UInt64.le_iff_toNat_le]
  refine and_congr_right fun hle => ?_
  rw [UInt64.toNat_sub_of_le _ _ (UInt64.le_iff_toNat_le.2 hle)]
  omega

/-- The region has all bytes of another. -/
def Encloses (r r' : Region) : Prop :=
  r.Covers r'.address (8 * r'.words.length)

instance (r r' : Region) : Decidable (r.Encloses r') :=
  inferInstanceAs (Decidable (r.Covers _ _))

theorem encloses_self (r : Region) : r.Encloses r :=
  covers_iff.2 ⟨Nat.le_refl _, Nat.le_refl _⟩

theorem Encloses.covers (h : r.Encloses r') (hc : r'.Covers addr len) : r.Covers addr len := by
  obtain ⟨hlow, hhigh⟩ := covers_iff.1 h
  obtain ⟨hlow', hhigh'⟩ := covers_iff.1 hc
  exact covers_iff.2 ⟨hlow.trans hlow', hhigh'.trans hhigh⟩

theorem getElem?_slice (hc : r.Covers addr len) {i : Nat} (hi : i < len) :
    (r.slice addr len)[i]? = r.byte? (addr.toNat + i) := by
  have hlow := UInt64.le_iff_toNat_le.1 hc.1
  rw [slice, List.getElem?_take, if_pos hi, List.getElem?_drop, byte?, if_pos (by omega),
    UInt64.toNat_sub_of_le _ _ hc.1]
  congr 1
  omega

theorem bounds_of_byte? {x : Nat} {b : UInt8} (hb : r.byte? x = some b) :
    r.address.toNat ≤ x ∧ x < r.address.toNat + 8 * r.words.length := by
  obtain ⟨hlow, hb⟩ := Option.ite_none_right_eq_some.1 hb
  have hlt := (List.getElem?_eq_some_iff.1 hb).1
  rw [length_bytes] at hlt
  omega

theorem length_slice (hc : r.Covers addr len) : (r.slice addr len).length = len := by
  rw [slice, List.length_take, List.length_drop, length_bytes]
  have := hc.2
  omega

end Region

namespace Replay

/-- Reads answer the same bytes where they overlap. -/
def ReadsAgree (p : Replay) : Prop :=
  ∀ addr len bytes addr' len' bytes',
    p.read addr len = .ok bytes → p.read addr' len' = .ok bytes' →
      ∀ i j b b', addr.toNat + i = addr'.toNat + j →
        bytes[i]? = some b → bytes'[j]? = some b' → b = b'

/-- The region is the first that has all its bytes. -/
def Exposed (p : Replay) (r : Region) : Prop :=
  p.regions.find? (fun q => q.Encloses r) = some r

variable {p : Replay} {addr : Word} {len : Nat} {bytes : List UInt8} {r : Region}

/-- A region that answers a read is not enclosed by any before it. -/
theorem exposed_of_region? (hr : p.region? addr len = some r) : p.Exposed r := by
  refine find?_of_imp hr (fun q hq => ?_) (decide_eq_true r.encloses_self)
  exact decide_eq_true ((of_decide_eq_true hq).covers (covers_of_region? hr))

theorem region?_eq_of_covers {r' : Region} {addr' : Word} {len' : Nat}
    (hr : p.region? addr len = some r) (hr' : p.region? addr' len' = some r')
    (hc : r.Covers addr' len') (hc' : r'.Covers addr len) : r = r' := by
  have hboth : p.regions.find? (fun q => q.Covers addr len ∧ q.Covers addr' len') = some r :=
    find?_of_imp hr (by simp +contextual) (by simp [covers_of_region? hr, hc])
  have hboth' : p.regions.find? (fun q => q.Covers addr len ∧ q.Covers addr' len') = some r' :=
    find?_of_imp hr' (by simp +contextual) (by simp [covers_of_region? hr', hc'])
  exact Option.some.inj (hboth.symm.trans hboth')

/-- What a read answers is a piece of one exposed region. -/
theorem read_of_exposed (hread : p.read addr len = .ok bytes) :
    ∃ r, p.region? addr len = some r ∧ p.Exposed r ∧ bytes.length = len
      ∧ ∀ i < len, bytes[i]? = r.byte? (addr.toNat + i) := by
  obtain ⟨r, hr, rfl⟩ := read_eq_ok.1 hread
  have hc := covers_of_region? hr
  exact ⟨r, hr, exposed_of_region? hr, Region.length_slice hc,
    fun i hi => Region.getElem?_slice hc hi⟩

theorem readsAgree_iff : p.ReadsAgree ↔ ∀ r r', p.Exposed r → p.Exposed r' → r.Agree r' := by
  constructor
  · intro hagree r r' hr hr' x b b' hb hb'
    obtain ⟨hlow, hhigh⟩ := Region.bounds_of_byte? hb
    obtain ⟨hlow', hhigh'⟩ := Region.bounds_of_byte? hb'
    refine hagree _ _ _ _ _ _ (read_eq_ok.2 ⟨r, hr, rfl⟩) (read_eq_ok.2 ⟨r', hr', rfl⟩)
      (x - r.address.toNat) (x - r'.address.toNat) b b' (by omega) ?_ ?_
    · rw [Region.getElem?_slice r.encloses_self (by omega), Nat.add_sub_cancel' hlow, hb]
    · rw [Region.getElem?_slice r'.encloses_self (by omega), Nat.add_sub_cancel' hlow', hb']
  · intro hagree addr len bytes addr' len' bytes' hread hread' i j b b' hx hb hb'
    obtain ⟨r, -, hr, hlength, hbytes⟩ := read_of_exposed hread
    obtain ⟨r', -, hr', hlength', hbytes'⟩ := read_of_exposed hread'
    have hi := (List.getElem?_eq_some_iff.1 hb).1
    have hj := (List.getElem?_eq_some_iff.1 hb').1
    rw [hbytes i (by omega)] at hb
    rw [hbytes' j (by omega), ← hx] at hb'
    exact hagree r r' hr hr' _ b b' hb hb'

theorem region?_of_stop {stop : Stop} (hs : p.stop? = some stop) (hr : r ∈ stop.memory)
    (hc : r.Covers addr len) : ∃ q ∈ stop.memory, p.region? addr len = some q := by
  have hsome : (stop.memory.find? fun q => q.Covers addr len).isSome :=
    List.find?_isSome.2 ⟨r, hr, decide_eq_true hc⟩
  obtain ⟨q, hq⟩ := Option.isSome_iff_exists.1 hsome
  refine ⟨q, List.mem_of_find?_eq_some hq, ?_⟩
  rw [region?, regions, hs]
  exact (List.find?_append ..).trans (by rw [hq, Option.some_or])

/-- All reads agree where they overlap if and only if the exposed regions do. Each read is of one of
them, so two reads agree at least where each of their regions covers the other read as well. A range
that a region of the stop covers is read from the stop, whatever the memory that is the same at all
stops holds there. -/
theorem reads_layered (p : Replay) :
    (p.ReadsAgree ↔ ∀ r r', p.Exposed r → p.Exposed r' → r.Agree r')
    ∧ (∀ addr len bytes addr' len' bytes',
      p.read addr len = .ok bytes → p.read addr' len' = .ok bytes' →
        ∃ r r', p.region? addr len = some r ∧ p.region? addr' len' = some r'
          ∧ (∀ i < len, bytes[i]? = r.byte? (addr.toNat + i))
          ∧ (∀ j < len', bytes'[j]? = r'.byte? (addr'.toNat + j))
          ∧ (r.Covers addr' len' → r'.Covers addr len → r = r'))
    ∧ ∀ stop, p.stop? = some stop → ∀ r ∈ stop.memory, ∀ addr len, r.Covers addr len →
      ∃ q ∈ stop.memory, p.region? addr len = some q ∧ p.read addr len = .ok (q.slice addr len) := by
  refine ⟨readsAgree_iff, fun addr len bytes addr' len' bytes' hread hread' => ?_,
    fun stop hs r hr addr len hc => ?_⟩
  · obtain ⟨r, hr, -, -, hbytes⟩ := read_of_exposed hread
    obtain ⟨r', hr', -, -, hbytes'⟩ := read_of_exposed hread'
    exact ⟨r, r', hr, hr', hbytes, hbytes', region?_eq_of_covers hr hr'⟩
  · obtain ⟨q, hq, hregion⟩ := region?_of_stop hs hr hc
    exact ⟨q, hq, hregion, read_eq_ok.2 ⟨q, hregion, rfl⟩⟩

/-- A program whose stop holds anew the second of two words that are the same at all stops. -/
def overridden : Replay where
  symbols := []
  memory := [⟨0x1000, [0x1111111111111111, 0x2222222222222222]⟩]
  stops := [⟨[], [⟨0x1008, [0x3333333333333333]⟩]⟩]
  passed := 0
  generation := 0

/-- Read by itself, the second word is that of the stop. Read with bytes before it, it is the old
one, all of it or in part. -/
theorem not_readsAgree_overridden :
    overridden.read 0x1008 8 = .ok (List.replicate 8 0x33)
      ∧ overridden.read 0x1000 16 = .ok (List.replicate 8 0x11 ++ List.replicate 8 0x22)
      ∧ overridden.host.readWord 0x1004 = .ok 0x2222222211111111
      ∧ ¬ overridden.ReadsAgree := by
  refine ⟨rfl, rfl, rfl, fun h => ?_⟩
  have hbyte : (0x33 : UInt8) = 0x22 := h 0x1008 8 _ 0x1000 16 _ rfl rfl 0 8 0x33 0x22 rfl rfl rfl
  exact absurd hbyte (by decide)

end Replay

end MixedStack
