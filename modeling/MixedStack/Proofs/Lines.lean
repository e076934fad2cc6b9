import Mathlib.Data.List.Basic
import MixedStack.Text.Lines

/-!
# The lines of a text

A script is cut at its line feeds, and what stands behind the last of them is a line only if there is
anything (`Text.lines_eq_splitOn`). In UTF-8 a byte below 128 is a character by itself, so no line
feed or carriage return is a part of another character, and all lines of a text are texts
(`Text.ofUtf8?_isSome_of_mem_lines`).
-/

namespace MixedStack.Text

/-- The lines of a script that was cut at its line feeds. -/
def finished (pieces : List (List UInt8)) : List (List UInt8) :=
  pieces.dropLast.map dropReturn ++ pieces.getLast?.toList.filter (· ≠ [])

theorem linesFrom_eq_finished (bs : List UInt8) : ∀ held,
    linesFrom held bs = finished (bs.splitOnPPrepend (· == lineFeed) held.reverse) := by
  induction bs with
  | nil =>
    intro held
    by_cases h : held = [] <;> simp [linesFrom, finished, h]
  | cons b bs ih =>
    intro held
    by_cases h : b = lineFeed
    · have hne : bs.splitOnP (· == lineFeed) ≠ [] := List.splitOnP_ne_nil _ bs
      rw [linesFrom, if_pos h, ih, List.splitOnPPrepend_cons_pos (by simpa using h)]
      simp only [finished, List.reverse_nil, List.reverse_reverse, List.splitOnPPrepend_nil_right,
        List.dropLast_cons_of_ne_nil hne, List.map_cons, List.cons_append]
      rw [List.getLast?_cons_of_ne_nil hne]
    · rw [linesFrom, if_neg h, ih, List.splitOnPPrepend_cons_neg (by simpa using h),
        List.reverse_append, List.reverse_singleton, List.singleton_append]

theorem lines_eq_splitOn (bs : List UInt8) : lines bs = finished (bs.splitOn lineFeed) :=
  linesFrom_eq_finished bs []

/-- The bytes of characters. -/
def encode (cs : List Char) : List UInt8 :=
  cs.flatMap String.utf8EncodeChar

theorem ofUtf8?_isSome_iff {bs : List UInt8} : (ofUtf8? bs).isSome ↔ ∃ cs, bs = encode cs := by
  unfold ofUtf8? String.fromUTF8?
  split
  case isTrue h =>
    obtain ⟨cs, hcs⟩ := h
    exact iff_of_true rfl ⟨cs, List.toByteArray_inj.1 hcs⟩
  case isFalse h =>
    refine iff_of_false nofun ?_
    rintro ⟨cs, rfl⟩
    exact h ⟨cs, rfl⟩

theorem utf8EncodeChar_of_le {c : Char} (hc : c.toNat ≤ 127) :
    String.utf8EncodeChar c = [UInt8.ofNat c.toNat] :=
  if_pos hc

theorem le_of_mem_utf8EncodeChar {c : Char} {b : UInt8} (hc : 127 < c.toNat)
    (hb : b ∈ String.utf8EncodeChar c) : 128 ≤ b.toNat := by
  have hbyte : ∀ n, 128 ≤ n → n < 256 → 128 ≤ (UInt8.ofNat n).toNat := by
    intro n hlow hhigh
    rw [UInt8.toNat_ofNat', Nat.mod_eq_of_lt hhigh]
    exact hlow
  have hnot : ¬ c.val.toNat ≤ 127 := Nat.not_le.2 hc
  simp only [String.utf8EncodeChar, if_neg hnot] at hb
  split at hb
  · simp only [List.mem_cons, List.not_mem_nil, or_false] at hb
    rcases hb with rfl | rfl <;> exact hbyte _ (by omega) (by omega)
  · split at hb
    · simp only [List.mem_cons, List.not_mem_nil, or_false] at hb
      rcases hb with rfl | rfl | rfl <;> exact hbyte _ (by omega) (by omega)
    · simp only [List.mem_cons, List.not_mem_nil, or_false] at hb
      rcases hb with rfl | rfl | rfl | rfl <;> exact hbyte _ (by omega) (by omega)

/-- A byte below 128 is a character by itself. -/
theorem utf8EncodeChar_of_mem {c : Char} {b : UInt8} (hb : b ∈ String.utf8EncodeChar c)
    (hlt : b.toNat < 128) : String.utf8EncodeChar c = [b] := by
  rcases Nat.lt_or_ge 127 c.toNat with hc | hc
  · have hle := le_of_mem_utf8EncodeChar hc hb
    omega
  · rw [utf8EncodeChar_of_le hc, List.mem_singleton] at hb
    rw [utf8EncodeChar_of_le hc, hb]

theorem linesFrom_append_of_not_mem {held bs : List UInt8} (h : lineFeed ∉ bs) (cs : List UInt8) :
    linesFrom held (bs ++ cs) = linesFrom (held ++ bs) cs := by
  induction bs generalizing held with
  | nil => rw [List.nil_append, List.append_nil]
  | cons b bs ih =>
    rw [List.mem_cons, not_or] at h
    rw [List.cons_append, linesFrom, if_neg (Ne.symm h.1), ih h.2, List.append_assoc,
      List.singleton_append]

theorem encode_append (cs ds : List Char) : encode (cs ++ ds) = encode cs ++ encode ds :=
  List.flatMap_append

theorem encode_singleton (c : Char) : encode [c] = String.utf8EncodeChar c :=
  List.flatMap_singleton _ c

theorem dropReturn_encode (cs : List Char) : ∃ ds, dropReturn (encode cs) = encode ds := by
  unfold dropReturn
  split
  case isFalse => exact ⟨cs, rfl⟩
  case isTrue h =>
    rcases List.eq_nil_or_concat' cs with rfl | ⟨ds, c, rfl⟩
    · exact ⟨[], rfl⟩
    -- the last byte is a carriage return, so it is all of the last character
    rw [encode_append, encode_singleton] at h ⊢
    rw [List.getLast?_append_of_ne_nil _ String.utf8EncodeChar_ne_nil] at h
    have hc := utf8EncodeChar_of_mem (List.mem_of_getLast? h) (by decide)
    rw [hc, List.dropLast_concat]
    exact ⟨ds, rfl⟩

theorem linesFrom_encode (cs : List Char) :
    ∀ hs, ∀ line ∈ linesFrom (encode hs) (encode cs), ∃ ds, line = encode ds := by
  induction cs with
  | nil =>
    intro hs line hline
    simp only [encode, List.flatMap_nil, linesFrom] at hline
    split at hline
    · exact absurd hline List.not_mem_nil
    · exact ⟨hs, List.mem_singleton.1 hline⟩
  | cons c cs ih =>
    intro hs line hline
    rw [← List.singleton_append, encode_append, encode_singleton] at hline
    by_cases hc : lineFeed ∈ String.utf8EncodeChar c
    · rw [utf8EncodeChar_of_mem hc (by decide), List.singleton_append, linesFrom, if_pos rfl,
        List.mem_cons] at hline
      rcases hline with rfl | hline
      · exact dropReturn_encode hs
      · exact ih [] line hline
    · rw [linesFrom_append_of_not_mem hc, ← encode_singleton, ← encode_append] at hline
      exact ih _ line hline

theorem ofUtf8?_isSome_of_mem_lines {bs line : List UInt8} (hbs : (ofUtf8? bs).isSome)
    (hline : line ∈ lines bs) : (ofUtf8? line).isSome := by
  obtain ⟨cs, rfl⟩ := ofUtf8?_isSome_iff.1 hbs
  exact ofUtf8?_isSome_iff.2 (linesFrom_encode cs [] line hline)

end MixedStack.Text
