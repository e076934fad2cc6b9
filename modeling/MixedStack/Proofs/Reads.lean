import Mathlib.Algebra.Order.Ring.Nat
import Mathlib.Tactic.Ring
import MixedStack.Replay

/-!
# What a read answers

Memory is answered by regions. The first region that has all bytes asked for answers them, those of
the current stop before those that are the same at all stops (`Replay.region?`), so a read answers
recorded bytes or says that they are not there. A word between two recorded ones is put together
from the upper bytes of the one and the lower bytes of the other (`Replay.reads_recorded`).
-/

namespace MixedStack

namespace Word

/-- The number that bytes spell, least significant first. -/
def number (bs : List UInt8) : Nat :=
  bs.foldr (fun b n => b.toNat + 256 * n) 0

theorem number_cons (b : UInt8) (bs : List UInt8) :
    number (b :: bs) = b.toNat + 256 * number bs := rfl

theorem number_append (bs cs : List UInt8) :
    number (bs ++ cs) = number bs + 256 ^ bs.length * number cs := by
  induction bs with
  | nil => simp [number]
  | cons b bs ih =>
    rw [List.cons_append, number_cons, number_cons, ih, List.length_cons, pow_succ]
    ring

theorem number_lt (bs : List UInt8) : number bs < 256 ^ bs.length := by
  induction bs with
  | nil => exact Nat.one_pos
  | cons b bs ih =>
    have hb : b.toNat < 256 := b.toNat_lt
    rw [number_cons, List.length_cons, pow_succ]
    omega

theorem number_bytes (w : Word) : number w.bytes = w.toNat := by
  have hspelt : (UInt64.ofNat (number w.bytes)).toNat = w.toNat := congrArg _ (ofBytes_bytes w)
  have hlt : number w.bytes < 2 ^ 64 := by simpa using number_lt w.bytes
  rwa [UInt64.toNat_ofNat', Nat.mod_eq_of_lt hlt] at hspelt

/-- Cutting the bytes of a word divides it. -/
theorem number_cut (w : Word) {k : Nat} (hk : k ≤ 8) :
    number (w.bytes.take k) = w.toNat % 256 ^ k ∧ number (w.bytes.drop k) = w.toNat / 256 ^ k := by
  have hlength : (w.bytes.take k).length = k := by
    rw [List.length_take, length_bytes, Nat.min_eq_left hk]
  have hwhole := number_append (w.bytes.take k) (w.bytes.drop k)
  have hlt := number_lt (w.bytes.take k)
  rw [List.take_append_drop, number_bytes, hlength] at hwhole
  rw [hlength] at hlt
  constructor
  · rw [hwhole, Nat.add_mul_mod_self_left, Nat.mod_eq_of_lt hlt]
  · rw [hwhole, Nat.add_mul_div_left _ _ (Nat.pow_pos (by decide)), Nat.div_eq_of_lt hlt,
      Nat.zero_add]

theorem toNat_shiftRight_of_lt (w : Word) {n : Nat} (hn : n < 64) :
    (w >>> UInt64.ofNat n).toNat = w.toNat / 2 ^ n := by
  rw [UInt64.toNat_shiftRight, UInt64.toNat_ofNat', Nat.mod_eq_of_lt (a := n) (by omega),
    Nat.mod_eq_of_lt hn, Nat.shiftRight_eq_div_pow]

theorem toNat_shiftLeft_of_lt (w : Word) {n : Nat} (hn : n < 64) :
    (w <<< UInt64.ofNat n).toNat = 2 ^ n * (w.toNat % 2 ^ (64 - n)) := by
  have hsplit : 2 ^ 64 = 2 ^ n * 2 ^ (64 - n) := by
    rw [← pow_add, Nat.add_sub_cancel' hn.le]
  rw [UInt64.toNat_shiftLeft, UInt64.toNat_ofNat', Nat.mod_eq_of_lt (a := n) (by omega),
    Nat.mod_eq_of_lt hn, Nat.shiftLeft_eq, mul_comm, hsplit, Nat.mul_mod_mul_left]

/-- Eight bytes out of two words are the upper bytes of the first, and the lower bytes of the second
above them. -/
theorem ofBytes_straddle (w w' : Word) {k : Nat} (hpos : 0 < k) (hk : k < 8) :
    ofBytes (((w.bytes ++ w'.bytes).drop k).take 8)
      = w >>> UInt64.ofNat (8 * k) ||| w' <<< UInt64.ofNat (64 - 8 * k) := by
  have hlength : (w.bytes.drop k).length = 8 - k := by rw [List.length_drop, length_bytes]
  have hcut : ((w.bytes ++ w'.bytes).drop k).take 8 = w.bytes.drop k ++ w'.bytes.take k := by
    rw [List.drop_append_of_le_length (by rw [length_bytes]; omega), List.take_append,
      List.take_of_length_le (by omega), hlength]
    congr 2
    omega
  have hbytes : ∀ n, (256 : Nat) ^ n = 2 ^ (8 * n) := fun n => (pow_mul 2 8 n).symm
  have hlow : w.toNat / 2 ^ (8 * k) < 2 ^ (64 - 8 * k) := by
    rw [Nat.div_lt_iff_lt_mul (Nat.two_pow_pos _), ← pow_add,
      Nat.sub_add_cancel (by omega)]
    exact w.toNat_lt
  have hspelt : number (w.bytes.drop k ++ w'.bytes.take k)
      = (w >>> UInt64.ofNat (8 * k) ||| w' <<< UInt64.ofNat (64 - 8 * k)).toNat := by
    rw [number_append, hlength, (number_cut w hk.le).2, (number_cut w' hk.le).1, hbytes, hbytes,
      UInt64.toNat_or, toNat_shiftRight_of_lt w (by omega), toNat_shiftLeft_of_lt w' (by omega),
      Nat.sub_sub_self (by omega), Nat.or_comm, ← Nat.two_pow_add_eq_or_of_lt hlow,
      Nat.mul_sub, Nat.add_comm]
  rw [hcut]
  exact (congrArg UInt64.ofNat hspelt).trans UInt64.ofNat_toNat

end Word

namespace Region

/-- The region has all bytes from an address on. -/
def Covers (r : Region) (addr : Word) (len : Nat) : Prop :=
  r.address ≤ addr ∧ (addr - r.address).toNat + len ≤ 8 * r.words.length

instance (r : Region) (addr : Word) (len : Nat) : Decidable (r.Covers addr len) :=
  inferInstanceAs (Decidable (_ ∧ _))

/-- The bytes from an address on. -/
def slice (r : Region) (addr : Word) (len : Nat) : List UInt8 :=
  (r.bytes.drop (addr - r.address).toNat).take len

variable {r : Region} {addr : Word} {len : Nat}

theorem read?_eq_slice (r : Region) (addr : Word) (len : Nat) :
    r.read? addr len
      = (Option.guard (fun r => r.Covers addr len) r).map fun r => r.slice addr len := by
  rw [read?_eq, Option.guard, apply_ite (Option.map _)]
  simp only [decide_eq_true_eq]
  rfl

/-- Whether a region has the bytes can be told in words, since nothing passes the last address that
any word could hold. -/
theorem covers_iff_words (hroom : 8 * r.words.length < UInt64.size) (hlen : len < UInt64.size) :
    r.Covers addr len ↔ ∃ offset stop, addr.sub? r.address = some offset
      ∧ offset.add? (UInt64.ofNat len) = some stop ∧ stop.toNat ≤ 8 * r.words.length := by
  have hword : (UInt64.ofNat len).toNat = len := by
    rw [UInt64.toNat_ofNat', Nat.mod_eq_of_lt hlen]
  have hsum : ∀ offset : Word, offset.toNat + len < UInt64.size →
      (offset + UInt64.ofNat len).toNat = offset.toNat + len := fun offset hlt => by
    rw [UInt64.toNat_add, hword, Nat.mod_eq_of_lt hlt]
  unfold Word.sub? Word.add?
  simp only [Option.ite_none_right_eq_some, Option.some.injEq, hword]
  constructor
  · rintro ⟨hle, hfit⟩
    have hlt := Nat.lt_of_le_of_lt hfit hroom
    exact ⟨_, _, ⟨hle, rfl⟩, ⟨hlt, rfl⟩, (hsum _ hlt).trans_le hfit⟩
  · rintro ⟨_, _, ⟨hle, rfl⟩, ⟨hlt, rfl⟩, hfit⟩
    exact ⟨hle, (hsum _ hlt).symm.trans_le hfit⟩

/-- The word that a region has at an address: a recorded one, or one between two recorded ones. -/
theorem ofBytes_slice (hc : r.Covers addr 8) {i k : Nat} (hk : k < 8)
    (ha : addr.toNat = r.address.toNat + (8 * i + k)) :
    ∃ w, r.words[i]? = some w ∧ (k = 0 → Word.ofBytes (r.slice addr 8) = w)
      ∧ (0 < k → ∃ w', r.words[i + 1]? = some w' ∧ Word.ofBytes (r.slice addr 8)
        = w >>> UInt64.ofNat (8 * k) ||| w' <<< UInt64.ofNat (64 - 8 * k)) := by
  obtain ⟨hle, hroom⟩ := hc
  have hoffset : (addr - r.address).toNat = 8 * i + k := by
    rw [UInt64.toNat_sub_of_le _ _ hle]
    omega
  have hi : i < r.words.length := by omega
  have hslice : r.slice addr 8 = (((r.words.drop i).flatMap Word.bytes).drop k).take 8 := by
    rw [slice, hoffset, flatMap_bytes_drop, List.drop_drop]
    rfl
  rw [hslice, List.drop_eq_getElem_cons hi, List.flatMap_cons]
  refine ⟨r.words[i], List.getElem?_eq_getElem hi, ?_, fun hpos => ?_⟩
  · rintro rfl
    rw [List.drop_zero, List.take_append_of_le_length (by simp),
      List.take_of_length_le (by simp), Word.ofBytes_bytes]
  · have hi' : i + 1 < r.words.length := by omega
    refine ⟨r.words[i + 1], List.getElem?_eq_getElem hi', ?_⟩
    rw [List.drop_eq_getElem_cons hi', List.flatMap_cons, ← List.append_assoc,
      List.drop_append_of_le_length (by simp; omega),
      List.take_append_of_le_length (by simp; omega), Word.ofBytes_straddle _ _ hpos hk]

end Region

namespace Replay

/-- The memory that a read searches, in this order. -/
def regions (p : Replay) : List Region :=
  match p.stop? with
  | some stop => stop.memory ++ p.memory
  | none => []

/-- The region that answers a read. -/
def region? (p : Replay) (addr : Word) (len : Nat) : Option Region :=
  p.regions.find? fun r => r.Covers addr len

variable {p : Replay} {addr : Word} {len : Nat}

theorem read_of_exited (hs : p.stop? = none) : p.read addr len = .error .running := by
  rw [read, hs]

theorem read_of_stop {stop : Stop} (hs : p.stop? = some stop) :
    p.read addr len =
      match p.region? addr len with
      | some r => .ok (r.slice addr len)
      | none => .error (.unmapped addr len) := by
  have hfind : (stop.memory ++ p.memory).findSome? (fun r => r.read? addr len)
      = (p.region? addr len).map fun r => r.slice addr len := by
    rw [region?, regions, hs, ← List.findSome?_guard, List.map_findSome?]
    congr 1
    funext r
    exact r.read?_eq_slice addr len
  rw [read, hs]
  simp only [hfind]
  cases p.region? addr len <;> rfl

theorem region?_of_exited (hs : p.stop? = none) : p.region? addr len = none := by
  rw [region?, regions, hs]
  rfl

theorem covers_of_region? {r : Region} (hr : p.region? addr len = some r) : r.Covers addr len := by
  simpa using List.find?_some hr

theorem region?_eq_none : p.region? addr len = none ↔ ∀ r ∈ p.regions, ¬ r.Covers addr len := by
  simp only [region?, List.find?_eq_none, decide_eq_true_eq]

theorem region?_isSome :
    (p.region? addr len).isSome ↔ ∃ r ∈ p.regions, r.Covers addr len := by
  simp only [region?, List.find?_isSome, decide_eq_true_eq]

/-- A read answers bytes if a region has them all, and those of the first such region. -/
theorem read_eq_ok {bytes : List UInt8} :
    p.read addr len = .ok bytes ↔ ∃ r, p.region? addr len = some r ∧ r.slice addr len = bytes := by
  rcases hs : p.stop? with _ | stop
  · rw [read_of_exited hs, region?_of_exited hs]
    exact ⟨nofun, nofun⟩
  · rw [read_of_stop hs]
    rcases p.region? addr len with _ | r
    · exact ⟨nofun, nofun⟩
    · simp only [Except.ok.injEq, Option.some.injEq, exists_eq_left']

theorem readWord_of_region? {r : Region} (hr : p.region? addr 8 = some r) :
    p.host.readWord addr = .ok (Word.ofBytes (r.slice addr 8)) := by
  have hread : p.host.read addr 8 = .ok (r.slice addr 8) := read_eq_ok.2 ⟨r, hr, rfl⟩
  rw [Host.readWord, hread]
  rfl

/-- A read fails as running if the program is not halted. Else the first region that has all bytes
asked for answers them as they were recorded, and without one the read fails as unmapped; the sums
this takes fit into words. So a word is answered as it was recorded or, between two recorded ones, as
the upper bytes of the one with the lower bytes of the other above them. -/
theorem reads_recorded (p : Replay) (addr : Word) :
    (∀ len,
      (p.read addr len = .error .running ↔ p.stop? = none)
      ∧ ((∃ bytes, p.read addr len = .ok bytes) ↔ ∃ r ∈ p.regions, r.Covers addr len)
      ∧ (∀ r, p.region? addr len = some r → p.read addr len = .ok (r.slice addr len))
      ∧ (p.read addr len = .error (.unmapped addr len)
        ↔ p.stop?.isSome ∧ ∀ r ∈ p.regions, ¬ r.Covers addr len)
      ∧ ∀ r : Region, 8 * r.words.length < UInt64.size → len < UInt64.size →
        (r.Covers addr len ↔ ∃ offset stop, addr.sub? r.address = some offset
          ∧ offset.add? (UInt64.ofNat len) = some stop ∧ stop.toNat ≤ 8 * r.words.length))
    ∧ ∀ r, p.region? addr 8 = some r → ∀ i k, k < 8 →
      addr.toNat = r.address.toNat + (8 * i + k) →
        ∃ w, r.words[i]? = some w ∧ (k = 0 → p.host.readWord addr = .ok w)
          ∧ (0 < k → ∃ w', r.words[i + 1]? = some w' ∧ p.host.readWord addr
            = .ok (w >>> UInt64.ofNat (8 * k) ||| w' <<< UInt64.ofNat (64 - 8 * k))) := by
  refine ⟨fun len => ⟨?_, ?_, fun r hr => read_eq_ok.2 ⟨r, hr, rfl⟩, ?_,
    fun r hroom hlen => Region.covers_iff_words hroom hlen⟩, fun r hr i k hk ha => ?_⟩
  · rcases hs : p.stop? with _ | stop
    · simp only [read_of_exited hs]
    · rw [read_of_stop hs]
      cases p.region? addr len <;> simp
  · rw [← region?_isSome, Option.isSome_iff_exists]
    constructor
    · rintro ⟨bytes, hbytes⟩
      obtain ⟨r, hr, -⟩ := read_eq_ok.1 hbytes
      exact ⟨r, hr⟩
    · rintro ⟨r, hr⟩
      exact ⟨_, read_eq_ok.2 ⟨r, hr, rfl⟩⟩
  · rw [← region?_eq_none]
    rcases hs : p.stop? with _ | stop
    · simp [read_of_exited hs]
    · rw [read_of_stop hs]
      cases p.region? addr len <;> simp
  · obtain ⟨w, hw, hwhole, hbetween⟩ := Region.ofBytes_slice (covers_of_region? hr) hk ha
    rw [readWord_of_region? hr]
    refine ⟨w, hw, fun hz => congrArg _ (hwhole hz), fun hpos => ?_⟩
    obtain ⟨w', hw', hword⟩ := hbetween hpos
    exact ⟨w', hw', congrArg _ hword⟩

-- A word that begins at the last recorded address there can be ends behind it.
example :
    let p : Replay := ⟨[], [⟨0xfffffffffffffff8, [0x0807060504030201, 0x1817161514131211]⟩],
      [⟨[], []⟩], 0, 0⟩
    p.host.readWord 0xffffffffffffffff = .ok 0x1716151413121108 := rfl

end Replay

end MixedStack
