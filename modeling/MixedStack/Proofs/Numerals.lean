import MixedStack.Text.Numeral

/-!
# Numerals are read back

The digits of a number spell that number, in any base up to sixteen (`Text.digits?_toDigits`), and
no sign is among them, so a word written in digits is read back (`Text.word?_toDigits`).
-/

namespace MixedStack

namespace Text

theorem digitValue?_digitChar : ∀ d < 16, digitValue? (Nat.digitChar d) = some d := by decide

theorem digit?_digitChar {base d : Nat} (hb : base ≤ 16) (hd : d < base) :
    digit? base (Nat.digitChar d) = some d := by
  simp [digit?, digitValue?_digitChar d (by omega), hd]

theorem digits?_append (base : Nat) (cs ds : List Char) :
    ∀ n, digits? base n (cs ++ ds) = (digits? base n cs).bind fun m => digits? base m ds := by
  induction cs with
  | nil => exact fun n => rfl
  | cons c cs ih =>
    intro n
    simp only [List.cons_append, digits?]
    rcases digit? base c with _ | d
    · rfl
    · simp only [Option.bind_some, ih]

/-- The digits of a number spell it. -/
theorem digits?_toDigits {base : Nat} (h1 : 1 < base) (hb : base ≤ 16) (n : Nat) :
    digits? base 0 (Nat.toDigits base n) = some n := by
  have hlast : ∀ m d, d < base → digits? base m [Nat.digitChar d] = some (base * m + d) := by
    intro m d hd
    simp [digits?, digit?_digitChar hb hd]
  induction n using Nat.base_induction base h1 with
  | single d hd =>
    rw [Nat.toDigits_of_lt_base hd, hlast 0 d hd]
    simp
  | digit m d hd hm ih =>
    rw [← Nat.toDigits_append_toDigits h1 hm hd, Nat.toDigits_of_lt_base hd, digits?_append, ih]
    exact hlast m d hd

theorem mem_toDigits {base : Nat} (h1 : 1 < base) {n : Nat} {c : Char}
    (hc : c ∈ Nat.toDigits base n) : ∃ d < base, c = Nat.digitChar d := by
  induction n using Nat.base_induction base h1 with
  | single d hd =>
    rw [Nat.toDigits_of_lt_base hd, List.mem_singleton] at hc
    exact ⟨d, hd, hc⟩
  | digit m d hd hm ih =>
    rw [← Nat.toDigits_append_toDigits h1 hm hd, Nat.toDigits_of_lt_base hd, List.mem_append,
      List.mem_singleton] at hc
    rcases hc with hc | hc
    · exact ih hc
    · exact ⟨d, hd, hc⟩

/-- A number above zero has no zero in front. -/
theorem head_toDigits {base : Nat} (h1 : 1 < base) {n : Nat} (hn : 0 < n) :
    ∃ c cs, Nat.toDigits base n = c :: cs ∧ c ≠ '0' := by
  induction n using Nat.base_induction base h1 with
  | single d hd =>
    refine ⟨_, [], Nat.toDigits_of_lt_base hd, ?_⟩
    simp only [ne_eq, Nat.digitChar_eq_zero]
    omega
  | digit m d hd hm ih =>
    obtain ⟨c, cs, hcs, hc⟩ := ih hm
    refine ⟨c, cs ++ Nat.toDigits base d, ?_, hc⟩
    rw [← Nat.toDigits_append_toDigits h1 hm hd, hcs, List.cons_append]

theorem word?_toDigits {base : Nat} (h1 : 1 < base) (hb : base ≤ 16) (w : Word) :
    word? base (Nat.toDigits base w.toNat) = some w := by
  have hplus : ∀ d < 16, Nat.digitChar d ≠ '+' := by decide
  have hread := digits?_toDigits h1 hb w.toNat
  have hlt : w.toNat < UInt64.size := w.toNat_lt_size
  rcases hds : Nat.toDigits base w.toNat with _ | ⟨c, cs⟩
  · simp at hds
  obtain ⟨d, hd, hc⟩ := mem_toDigits h1 (hds ▸ List.mem_cons_self : c ∈ Nat.toDigits base w.toNat)
  have hne : c ≠ '+' := hc ▸ hplus d (by omega)
  rw [hds] at hread
  unfold word?
  split
  · simp_all
  · simp [natural?, hread, hlt]

end Text

end MixedStack
