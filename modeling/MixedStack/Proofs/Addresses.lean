import Mathlib.Data.List.Forall2
import Mathlib.Data.List.TakeWhile
import Mathlib.Data.Nat.Digits.Defs
import MixedStack.Proofs.Numerals
import MixedStack.Recording.Address

/-!
# Addresses are read as they are spelled

What a text has to look like to be an address is said here without reading it: blanks around it that
go (`Text.Trimmed`), a mark in front that tells the base (`Address.Based`), and a numeral of that
base between the underscores (`Text.Numeral`). A text is read as an address if it has this form
(`Address.ofText?_eq_some_iff`), and the hexadecimal text of an address has it, with any blanks and
underscores added (`Address.spells_grouped`).
-/

namespace MixedStack

namespace Text

section Digits

variable {base : Nat} {cs : List Char}

/-- A character is a digit of a base and worth `d`. Letters may have either case. -/
def Worth (base : Nat) (c : Char) (d : Nat) : Prop :=
  d < base ∧ (c = Nat.digitChar d ∨ c = (Nat.digitChar d).toUpper)

theorem digitValue?_toUpper : ∀ d < 16, digitValue? (Nat.digitChar d).toUpper = some d := by
  decide

theorem digit?_eq_some_iff (hb : base ≤ 16) {c : Char} {d : Nat} :
    digit? base c = some d ↔ Worth base c d := by
  simp only [digit?, Option.filter_eq_some_iff, decide_eq_true_eq, Worth, and_comm (b := d < base)]
  refine and_congr_right fun hd => ⟨fun h => ?_, ?_⟩
  · have hd16 : d < 16 := by omega
    -- A digit is the first of its run, moved on by what it is worth.
    have hdecimal : ∀ d < 10, Char.ofNat (48 + d) = Nat.digitChar d := by decide
    have hlower : ∀ d < 16, 10 ≤ d → Char.ofNat (87 + d) = Nat.digitChar d := by decide
    have hupper : ∀ d < 16, 10 ≤ d → Char.ofNat (55 + d) = (Nat.digitChar d).toUpper := by decide
    have hle : ∀ a b : Char, a ≤ b ↔ a.toNat ≤ b.toNat := fun _ _ => Iff.rfl
    have hnumber : ∀ n, c.toNat = n → c = Char.ofNat n := by
      rintro n rfl
      exact (Char.ofNat_toNat c).symm
    unfold digitValue? at h
    simp only [hle, Char.reduceToNat] at h
    split_ifs at h with h1 h2 h3 <;> simp only [Option.some.injEq] at h
    · exact .inl ((hnumber (48 + d) (by omega)).trans (hdecimal d (by omega)))
    · exact .inl ((hnumber (87 + d) (by omega)).trans (hlower d hd16 (by omega)))
    · exact .inr ((hnumber (55 + d) (by omega)).trans (hupper d hd16 (by omega)))
  · rintro (rfl | rfl)
    · exact digitValue?_digitChar d (by omega)
    · exact digitValue?_toUpper d (by omega)

/-- Digits are worth what they spell in their base, the last of them standing for ones. -/
theorem digits?_eq_some_iff (hb : base ≤ 16) (cs : List Char) : ∀ n v,
    digits? base n cs = some v ↔
      ∃ ds, List.Forall₂ (Worth base) cs ds ∧ v = ds.foldl (fun n d => d + base * n) n := by
  induction cs with
  | nil => simp [digits?, eq_comm]
  | cons c cs ih =>
    intro n v
    simp only [digits?, Option.bind_eq_some_iff, digit?_eq_some_iff hb, ih,
      List.forall₂_cons_left_iff]
    constructor
    · rintro ⟨d, hd, ds, hds, rfl⟩
      exact ⟨d :: ds, ⟨d, ds, hd, hds, rfl⟩, by rw [List.foldl_cons, Nat.add_comm]⟩
    · rintro ⟨_, ⟨d, ds, hd, hds, rfl⟩, rfl⟩
      exact ⟨d, hd, ds, hds, by rw [List.foldl_cons, Nat.add_comm]⟩

/-- One digit or more that spell `n`. -/
def Digits (base : Nat) (cs : List Char) (n : Nat) : Prop :=
  cs ≠ [] ∧ ∃ ds, List.Forall₂ (Worth base) cs ds ∧ n = Nat.ofDigits base ds.reverse

theorem natural?_eq_some_iff (hb : base ≤ 16) {n : Nat} :
    natural? base cs = some n ↔ Digits base cs n := by
  have hvalue : ∀ ds : List Nat,
      Nat.ofDigits base ds.reverse = ds.foldl (fun n d => d + base * n) 0 := by
    intro ds
    rw [Nat.ofDigits_eq_foldr, List.foldr_reverse]
    rfl
  rcases cs with _ | ⟨c, cs⟩
  · simp [natural?, Digits]
  · simp [natural?, Digits, digits?_eq_some_iff hb, hvalue]

/-- A numeral for `n`: digits, with or without a sign in front. -/
def Numeral (base : Nat) (cs : List Char) (n : Nat) : Prop :=
  Digits base cs n ∨ ∃ digits, cs = '+' :: digits ∧ Digits base digits n

theorem not_digits_plus (hb : base ≤ 16) (n : Nat) : ¬ Digits base ('+' :: cs) n := by
  rintro ⟨-, ds, hds, -⟩
  obtain ⟨d, _, hd, -⟩ := List.forall₂_cons_left_iff.1 hds
  simp [← digit?_eq_some_iff hb, digit?, show digitValue? '+' = none by decide] at hd

theorem word?_eq_some_iff (hb : base ≤ 16) {w : Word} :
    word? base cs = some w ↔ Numeral base cs w.toNat := by
  have hword : ∀ ds, ((natural? base ds).bind fun n =>
      if n < UInt64.size then some (UInt64.ofNat n) else none) = some w ↔
        Digits base ds w.toNat := by
    intro ds
    rw [← natural?_eq_some_iff hb, Option.bind_eq_some_iff]
    constructor
    · rintro ⟨n, hn, hw⟩
      split_ifs at hw with hlt
      cases hw
      rwa [UInt64.toNat_ofNat_of_lt' hlt]
    · intro hn
      exact ⟨_, hn, by simp [w.toNat_lt_size]⟩
  unfold word? Numeral
  split
  case h_1 digits => simp [hword, not_digits_plus hb]
  case h_2 hplus =>
    rw [hword, or_iff_left]
    rintro ⟨digits, rfl, -⟩
    exact hplus digits rfl

end Digits

/-- `core` is `cs` without the blanks at its two ends. -/
structure Trimmed (cs core : List Char) : Prop where
  around : ∃ front back, cs = front ++ core ++ back ∧ ∀ c ∈ front ++ back, isBlank c
  first : ∀ c ∈ core.head?, isBlank c = false
  last : ∀ c ∈ core.getLast?, isBlank c = false

theorem dropWhile_isBlank {cs : List Char} (h : ∀ c ∈ cs.head?, isBlank c = false) :
    cs.dropWhile isBlank = cs := by
  rcases cs with _ | ⟨c, cs⟩
  · rfl
  · exact List.dropWhile_cons_of_neg (by simpa using h c rfl)

theorem isBlank_head_dropWhile (cs : List Char) :
    ∀ c ∈ (cs.dropWhile isBlank).head?, isBlank c = false := by
  intro c hc
  have h := List.head?_dropWhile_not isBlank cs
  rwa [Option.mem_def.1 hc] at h

theorem trimmed_trim (cs : List Char) : Trimmed cs (trim cs) := by
  have hfront : cs = cs.takeWhile isBlank ++ cs.dropWhile isBlank :=
    List.takeWhile_append_dropWhile.symm
  have hback : cs.dropWhile isBlank =
      trim cs ++ ((cs.dropWhile isBlank).reverse.takeWhile isBlank).reverse := by
    rw [trim, ← List.reverse_append, List.takeWhile_append_dropWhile, List.reverse_reverse]
  refine ⟨⟨_, _, by rw [List.append_assoc, ← hback, ← hfront], ?_⟩, ?_, ?_⟩
  · intro c hc
    rcases List.mem_append.1 hc with hc | hc
    · exact List.mem_takeWhile_imp hc
    · exact List.mem_takeWhile_imp (List.mem_reverse.1 hc)
  · intro c hc
    refine isBlank_head_dropWhile cs c ?_
    rw [hback, List.head?_append, Option.mem_def.1 hc]
    rfl
  · intro c hc
    rw [trim, List.getLast?_reverse] at hc
    exact isBlank_head_dropWhile _ c hc

theorem Trimmed.trim_eq {cs core : List Char} (h : Trimmed cs core) : trim cs = core := by
  obtain ⟨⟨front, back, rfl, hblank⟩, hfirst, hlast⟩ := h
  have hfront : ∀ c ∈ front, isBlank c := fun c hc => hblank c (List.mem_append_left _ hc)
  have hback : ∀ c ∈ back, isBlank c := fun c hc => hblank c (List.mem_append_right _ hc)
  rw [trim, List.append_assoc, List.dropWhile_append_of_pos hfront]
  rcases core with _ | ⟨c, core⟩
  · rw [List.nil_append, List.dropWhile_eq_nil_iff.2 hback]
    rfl
  · have hlast : ∀ d ∈ (c :: core).reverse.head?, isBlank d = false := by
      rwa [List.head?_reverse]
    have hkept : (c :: core ++ back).dropWhile isBlank = c :: core ++ back :=
      dropWhile_isBlank hfirst
    rw [hkept, List.reverse_append,
      List.dropWhile_append_of_pos fun d hd => hback d (List.mem_reverse.1 hd),
      dropWhile_isBlank hlast, List.reverse_reverse]

end Text

namespace Address

/-- What stands behind the mark of a base. Without a mark the base is ten. -/
inductive Based : List Char → Nat → List Char → Prop where
  | lower (body : List Char) : Based ('0' :: 'x' :: body) 16 body
  | upper (body : List Char) : Based ('0' :: 'X' :: body) 16 body
  | unmarked {cs : List Char} (hlower : ¬ ['0', 'x'] <+: cs) (hupper : ¬ ['0', 'X'] <+: cs) :
    Based cs 10 cs

variable {s : String} {cs : List Char} {w : Word}

theorem ofTrimmed?_of_based {base : Nat} {body : List Char} (h : Based cs base body) :
    ofTrimmed? cs = Text.word? base (ungrouped body) := by
  unfold ofTrimmed?
  cases h with
  | lower => rfl
  | upper => rfl
  | unmarked hlower hupper =>
    split
    · simp at hlower
    · simp at hupper
    · rfl

theorem exists_based (cs : List Char) : ∃ base body, Based cs base body := by
  by_cases hlower : ['0', 'x'] <+: cs
  · obtain ⟨body, rfl⟩ := hlower
    exact ⟨16, body, .lower body⟩
  by_cases hupper : ['0', 'X'] <+: cs
  · obtain ⟨body, rfl⟩ := hupper
    exact ⟨16, body, .upper body⟩
  · exact ⟨10, cs, .unmarked hlower hupper⟩

theorem Based.le {base : Nat} {body : List Char} (h : Based cs base body) : base ≤ 16 := by
  cases h <;> decide

/-- A text is an address: a numeral behind the mark of its base, with underscores in it and blanks
around it. -/
def Spells (s : String) (w : Word) : Prop :=
  ∃ core base body, Text.Trimmed s.toList core ∧ Based core base body ∧
    Text.Numeral base (ungrouped body) w.toNat

theorem ofText?_eq_some_iff : ofText? s = some w ↔ Spells s w := by
  unfold ofText?
  constructor
  · intro h
    obtain ⟨base, body, hbased⟩ := exists_based (Text.trim s.toList)
    rw [ofTrimmed?_of_based hbased, Text.word?_eq_some_iff hbased.le] at h
    exact ⟨_, base, body, Text.trimmed_trim _, hbased, h⟩
  · rintro ⟨core, base, body, htrim, hbased, hnumeral⟩
    rw [htrim.trim_eq, ofTrimmed?_of_based hbased, Text.word?_eq_some_iff hbased.le]
    exact hnumeral

theorem read_text (s : String) :
    read (.text s) = (ofText? s).elim (.error (.mismatch (.badAddress s))) .ok := by
  unfold read
  simp only [Json.Value.flaw?]
  cases ofText? s <;> rfl

/-- The text of an address spells it with any blanks around it and any underscores behind `0x`. -/
theorem spells_grouped (front : List Char) {grouped : List Char} (back : List Char)
    (hblank : ∀ c ∈ front ++ back, Text.isBlank c)
    (hdigits : ungrouped grouped = Nat.toDigits 16 w.toNat) :
    Spells (String.ofList (front ++ '0' :: 'x' :: grouped ++ back)) w := by
  have hplain : ∀ d < 16, Text.isBlank (Nat.digitChar d) = false := by decide
  have hgrouped : ∀ c ∈ grouped, Text.isBlank c = false := by
    intro c hc
    by_cases h : c = '_'
    · exact h ▸ rfl
    · have hmem : c ∈ ungrouped grouped := List.mem_filter.2 ⟨hc, by simpa using h⟩
      obtain ⟨d, hd, rfl⟩ := Text.mem_toDigits (by decide) (hdigits ▸ hmem)
      exact hplain d hd
  have hlast : ∀ c ∈ '0' :: 'x' :: grouped, Text.isBlank c = false := by
    simpa using ⟨rfl, rfl, hgrouped⟩
  refine ⟨'0' :: 'x' :: grouped, 16, grouped, ⟨⟨front, back, String.toList_ofList, hblank⟩, ?_, ?_⟩,
    .lower grouped, ?_⟩
  · exact fun c hc => hlast c (List.mem_of_mem_head? hc)
  · exact fun c hc => hlast c (List.mem_of_mem_getLast? hc)
  · rw [← Text.word?_eq_some_iff (by decide), hdigits]
    exact Text.word?_toDigits (by decide) (by decide) w

theorem ungrouped_toDigits (n : Nat) : ungrouped (Nat.toDigits 16 n) = Nat.toDigits 16 n := by
  have hplain : ∀ d < 16, Nat.digitChar d ≠ '_' := by decide
  refine List.filter_eq_self.2 fun c hc => ?_
  obtain ⟨d, hd, rfl⟩ := Text.mem_toDigits (by decide) hc
  simp [hplain d hd]

theorem ofText?_hex (w : Word) : ofText? w.hex = some w := by
  have h := spells_grouped [] [] (by simp) (ungrouped_toDigits w.toNat)
  rwa [List.append_nil, ← ofText?_eq_some_iff] at h

theorem read_toValue (w : Word) : read (toValue w) = .ok w := by
  rw [toValue, read_text, ofText?_hex]
  rfl

/-- A text is read as the address it spells. A text that spells none is quoted by the error. So an
address is read back from the text it is written as, also with blanks around that text and with
underscores anywhere behind its `0x`. -/
theorem read_text_exact :
    (∀ s w, read (.text s) = .ok w ↔ Spells s w) ∧
    (∀ s, (∀ w, ¬ Spells s w) →
      ∃ m : Json.Mismatch, read (.text s) = .error (.mismatch m) ∧
        m.message = "invalid address '" ++ s ++ "'") ∧
    (∀ a, read (toValue a) = .ok a) ∧
    ∀ (a : Word) (front grouped back : List Char), (∀ c ∈ front ++ back, Text.isBlank c) →
      a.hex.toList = '0' :: 'x' :: ungrouped grouped →
        read (.text (String.ofList (front ++ '0' :: 'x' :: grouped ++ back))) = .ok a := by
  have hread : ∀ s w, read (.text s) = .ok w ↔ Spells s w := by
    intro s w
    rw [read_text, ← ofText?_eq_some_iff]
    cases ofText? s <;> simp
  refine ⟨hread, ?_, read_toValue, ?_⟩
  · intro s hs
    have hnone : ofText? s = none :=
      Option.eq_none_iff_forall_ne_some.2 fun w hw => hs w (ofText?_eq_some_iff.1 hw)
    exact ⟨.badAddress s, by rw [read_text, hnone]; rfl, rfl⟩
  · intro a front grouped back hblank hhex
    refine (hread _ a).2 (spells_grouped front back hblank ?_)
    simpa [Word.hex] using hhex.symm

-- The mark of the base comes first, and the sign of the numeral behind it.
example : (ofText? " 0X+00_ff\n", ofText? "0x", ofText? "_0x10", ofText? "+0x10")
    = (some 255, none, none, none) := by decide

end Address

end MixedStack
