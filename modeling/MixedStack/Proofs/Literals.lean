import Mathlib.Data.List.TakeDrop
import MixedStack.Json.Literal
import MixedStack.Json.Number
import MixedStack.Proofs.Numerals

/-!
# Literals are read back

A string written as a literal is read back from behind its opening quote, up to its closing one and
no further (`string_encoded`). So are the digits of an integer, where a text goes on with something
that could not belong to them (`Ends`): a comma, a closing bracket, or nothing.
-/

namespace MixedStack.Json

/-- What may follow a value: a comma, a closing bracket, or nothing. -/
def Ends (rest : List Char) : Prop :=
  ∀ c ∈ rest.head?, c = ',' ∨ c = ']' ∨ c = '\x7d'

section Strings

/-- A control character comes back from its four digits. -/
theorem unicodeEscape_control : ∀ n < 0x20, ∀ rest : List Char,
    unicodeEscape ('0' :: '0' :: Nat.digitChar (n / 16) :: Nat.digitChar (n % 16) :: rest)
      = .ok (Char.ofNat n, rest) := by
  have hspell : ∀ n < 0x20,
      Text.digits? 16 0 ['0', '0', Nat.digitChar (n / 16), Nat.digitChar (n % 16)] = some n := by
    decide
  intro n hn rest
  have hlow : ¬ (0xdc00 ≤ n ∧ n ≤ 0xdfff) := by omega
  have hhigh : ¬ (0xd800 ≤ n ∧ n ≤ 0xdbff) := by omega
  simp only [unicodeEscape, fourHex, hspell n hn, bind, Except.bind, hlow, hhigh, if_false]
  rfl

/-- A character stands for itself in a literal, or an escape stands for it. -/
theorem encodedChar_cases (c : Char) :
    (encodedChar c = [c] ∧ c ≠ '\x22' ∧ c ≠ '\\' ∧ ¬ c.toNat < 0x20)
      ∨ ∃ e, encodedChar c = '\\' :: e ∧ ∀ cs, escape (e ++ cs) = .ok (c, cs) := by
  unfold encodedChar
  split_ifs with h1 h2 h3 h4 h5 h6 h7 h8
  · exact .inr ⟨_, rfl, fun cs => by subst h1; rfl⟩
  · exact .inr ⟨_, rfl, fun cs => by subst h2; rfl⟩
  · exact .inr ⟨_, rfl, fun cs => by subst h3; rfl⟩
  · exact .inr ⟨_, rfl, fun cs => by subst h4; rfl⟩
  · exact .inr ⟨_, rfl, fun cs => by subst h5; rfl⟩
  · exact .inr ⟨_, rfl, fun cs => by subst h6; rfl⟩
  · exact .inr ⟨_, rfl, fun cs => by subst h7; rfl⟩
  · refine .inr ⟨_, rfl, fun cs => ?_⟩
    have hread := unicodeEscape_control c.toNat h8 cs
    rw [Char.ofNat_toNat] at hread
    exact hread
  · exact .inl ⟨rfl, h1, h2, h8⟩

theorem charsWithin_cons {c : Char} (hquote : c ≠ '\x22') (hlow : ¬ c.toNat < 0x20) (t : Char)
    (ticks cs : List Char) :
    charsWithin (t :: ticks) (c :: cs)
      = (if c = '\\' then escape cs else .ok (c, cs)).bind fun x =>
          (charsWithin ticks x.2).map fun y => (x.1 :: y.1, y.2) := by
  have hgo : ∀ d ds, ((charsWithin ticks ds).bind fun y => .ok (d :: y.1, y.2))
      = (charsWithin ticks ds).map fun y => (d :: y.1, y.2) := by
    intro d ds
    rcases charsWithin ticks ds with flaw | y <;> rfl
  rw [charsWithin, if_neg hquote, if_neg hlow]
  split
  · rcases escape cs with flaw | ⟨d, ds⟩
    · rfl
    · exact hgo d ds
  · exact hgo c cs

theorem charsWithin_encodedChar (c t : Char) (ticks cs : List Char) :
    charsWithin (t :: ticks) (encodedChar c ++ cs)
      = (charsWithin ticks cs).map fun x => (c :: x.1, x.2) := by
  rcases encodedChar_cases c with ⟨hc, hquote, hslash, hlow⟩ | ⟨e, he, hesc⟩
  · rw [hc, List.singleton_append, charsWithin_cons hquote hlow, if_neg hslash]
    rfl
  · rw [he, List.cons_append, charsWithin_cons (by decide) (by decide), if_pos rfl, hesc]
    rfl

theorem charsWithin_encoded (cs rest : List Char) :
    ∀ ticks : List Char, cs.length < ticks.length →
      charsWithin ticks (cs.flatMap encodedChar ++ '\x22' :: rest) = .ok (cs, rest) := by
  induction cs with
  | nil =>
    rintro (_ | ⟨t, ticks⟩) hlen
    · simp at hlen
    · rfl
  | cons c cs ih =>
    rintro (_ | ⟨t, ticks⟩) hlen
    · simp at hlen
    · simp only [List.length_cons] at hlen
      rw [List.flatMap_cons, List.append_assoc, charsWithin_encodedChar, ih ticks (by omega)]
      rfl

theorem length_encodedChar_pos (c : Char) : 0 < (encodedChar c).length := by
  rcases encodedChar_cases c with ⟨hc, -⟩ | ⟨e, he, -⟩ <;> simp [*]

theorem length_le_encoded (cs : List Char) : cs.length ≤ (cs.flatMap encodedChar).length := by
  induction cs with
  | nil => simp
  | cons c cs ih =>
    have := length_encodedChar_pos c
    simp only [List.flatMap_cons, List.length_append, List.length_cons]
    omega

/-- A string is read back from its literal, behind the opening quote. -/
theorem string_encoded (s : String) (rest : List Char) :
    string (s.toList.flatMap encodedChar ++ '\x22' :: rest) = .ok (s, rest) := by
  have hlen := length_le_encoded s.toList
  have hread := charsWithin_encoded s.toList rest
    (s.toList.flatMap encodedChar ++ '\x22' :: rest) (by
      rw [List.length_append, List.length_cons]
      omega)
  simp only [string, hread, bind, Except.bind, String.ofList_toList]
  rfl

end Strings

section Numbers

theorem isDigit_of_mem_toDigits {n : Nat} {c : Char} (hc : c ∈ Nat.toDigits 10 n) :
    isDigit c = true := by
  have hdigit : ∀ d < 10, isDigit (Nat.digitChar d) = true := by decide
  obtain ⟨d, hd, rfl⟩ := Text.mem_toDigits (by decide) hc
  exact hdigit d hd

theorem Ends.not_isDigit {rest : List Char} (hr : Ends rest) {c : Char} (hc : c ∈ rest.head?) :
    isDigit c = false := by
  rcases hr c hc with rfl | rfl | rfl <;> decide

theorem someDigits_toDigits (n : Nat) {rest : List Char} (hr : Ends rest) :
    someDigits (Nat.toDigits 10 n ++ rest) = .ok (Nat.toDigits 10 n, rest) := by
  have hspan : (Nat.toDigits 10 n ++ rest).span isDigit = (Nat.toDigits 10 n, rest) := by
    rw [List.span_eq_takeWhile_dropWhile,
      List.takeWhile_append_of_pos fun c hc => isDigit_of_mem_toDigits hc,
      List.dropWhile_append_of_pos fun c hc => isDigit_of_mem_toDigits hc]
    rcases rest with _ | ⟨c, rest⟩
    · simp
    · simp [hr.not_isDigit (c := c) rfl]
  unfold someDigits
  rw [hspan]
  split <;> simp_all

theorem wholeDigits_toDigits (n : Nat) {rest : List Char} (hr : Ends rest) :
    wholeDigits (Nat.toDigits 10 n ++ rest) = .ok (Nat.toDigits 10 n, rest) := by
  simp only [wholeDigits, someDigits_toDigits n hr, bind, Except.bind]
  split
  case h_1 c cs hds =>
    -- only zero begins with a zero, and has nothing behind it
    rcases Nat.eq_zero_or_pos n with rfl | hn
    · simp at hds
    · obtain ⟨c, cs, hcs, hc⟩ := Text.head_toDigits (by decide : 1 < 10) hn
      rw [hcs] at hds
      simp_all
  case h_2 => rfl

theorem digits_toDigits (n : Nat) {rest : List Char} (hr : Ends rest) :
    digits (Nat.toDigits 10 n ++ rest) = .ok (⟨Nat.toDigits 10 n, [], none⟩, rest) := by
  have hfraction : fractionDigits rest = .ok ([], rest) := by
    unfold fractionDigits
    split
    case h_1 => rcases hr '.' rfl with h | h | h <;> simp at h
    case h_2 => rfl
  have hexponent : exponentDigits rest = .ok (none, rest) := by
    rcases rest with _ | ⟨c, rest⟩
    · rfl
    · rcases hr c rfl with rfl | rfl | rfl <;> rfl
  simp only [digits, wholeDigits_toDigits n hr, hfraction, hexponent, bind, Except.bind]
  rfl

theorem number_of_digits {cs rest : List Char} {ds : Digits} (hds : digits cs = .ok (ds, rest))
    (hminus : '-' ∉ cs.head?) : number cs = (ds.value false, rest) := by
  have hplain : ∀ cs', cs ≠ '-' :: cs' := by
    rintro cs' rfl
    exact hminus rfl
  unfold number
  split
  rename_i minus unsigned heq
  split at heq
  · exact absurd rfl (hplain _)
  · cases heq
    simp only [hds]

theorem number_minus {cs rest : List Char} {ds : Digits} (hds : digits cs = .ok (ds, rest)) :
    number ('-' :: cs) = (ds.value true, rest) := by
  simp only [number, hds]

/-- A word is read back from its decimal digits. -/
theorem number_natural (n : Word) {rest : List Char} (hr : Ends rest) :
    number (Nat.toDigits 10 n.toNat ++ rest) = (.natural n, rest) := by
  have hlt : n.toNat < UInt64.size := n.toNat_lt_size
  have hread := Text.digits?_toDigits (by decide : 1 < 10) (by decide) n.toNat
  rw [number_of_digits (digits_toDigits n.toNat hr)]
  · simp [Digits.value, hread, hlt]
  · intro hhead
    rcases hds : Nat.toDigits 10 n.toNat with _ | ⟨c, cs⟩
    · simp at hds
    · rw [hds] at hhead
      obtain rfl : c = '-' := by simpa using hhead
      have := isDigit_of_mem_toDigits (hds ▸ List.mem_cons_self : '-' ∈ Nat.toDigits 10 n.toNat)
      exact absurd this (by decide)

/-- So is an integer below zero that fits a signed word. -/
theorem number_negative {n : Nat} (hpos : 0 < n) (hn : n ≤ 1 <<< 63) {rest : List Char}
    (hr : Ends rest) : number ('-' :: (Nat.toDigits 10 n ++ rest)) = (.negative (-n), rest) := by
  have hread := Text.digits?_toDigits (by decide : 1 < 10) (by decide) n
  rw [number_minus (digits_toDigits n hr)]
  simp only [Digits.value, hread, Option.getD_some, Bool.true_eq_false, and_false, false_and,
    and_self, if_false, hpos, hn, if_true]

end Numbers

end MixedStack.Json
