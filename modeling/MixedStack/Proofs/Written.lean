import MixedStack.Json.Printer
import MixedStack.Json.Reader
import MixedStack.Proofs.Literals

/-!
# Values are read back

A value without flaws (`Value.Intact`) is read back from the text it is written as, and nothing of
the text behind it is lost (`value_written`). Lists and objects share one argument: elements that are
read back one by one are read back between their brackets (`many_written`).
-/

namespace MixedStack.Json

/-- A value without flaws. Its numbers are integers, and its brackets stand at most `depth` deep. -/
inductive Value.Intact : (depth : Nat) → Value → Prop where
  | null {depth : Nat} : Intact depth .null
  | boolean {depth : Nat} (b : Bool) : Intact depth (.boolean b)
  | natural {depth : Nat} (n : Word) : Intact depth (.natural n)
  | negative {depth n : Nat} (hpos : 0 < n) (hn : n ≤ 1 <<< 63) : Intact depth (.negative (-n))
  | text {depth : Nat} (s : String) : Intact depth (.text s)
  | list {depth : Nat} {items : List Value} (hitems : ∀ v ∈ items, Intact depth v) :
    Intact (depth + 1) (.list items none)
  | object {depth : Nat} {members : List (String × Value)}
    (hmembers : ∀ m ∈ members, Intact depth m.2) : Intact (depth + 1) (.object members none)

section Runs

variable {α : Type} {close : Char} {text : α → List Char}
  {element : List Char → Except Flaw (α × List Char)}

/-- What stands behind an element: more elements behind commas, and the closing bracket. -/
def separated (close : Char) (text : α → List Char) : List α → List Char
  | [] => [close]
  | a :: as => ',' :: (text a ++ separated close text as)

/-- What stands behind an opening bracket. -/
def listed (close : Char) (text : α → List Char) : List α → List Char
  | [] => [close]
  | a :: as => text a ++ separated close text as

theorem length_separated (close : Char) (text : α → List Char) (as : List α) :
    as.length < (separated close text as).length := by
  induction as with
  | nil => simp [separated]
  | cons a as ih =>
    simp only [separated, List.length_cons, List.length_append]
    omega

theorem skipSpace_cons {c : Char} (hc : isSpace c = false) (cs : List Char) :
    skipSpace (c :: cs) = c :: cs := by
  simp [skipSpace, hc]

variable (hclose : close = ']' ∨ close = '\x7d')
include hclose

theorem ends_separated (as : List α) (rest : List Char) :
    Ends (separated close text as ++ rest) := by
  intro c hc
  rcases as with _ | ⟨a, as⟩
  · obtain rfl : close = c := by simpa [separated] using hc
    exact .inr hclose
  · obtain rfl : ',' = c := by simpa [separated] using hc
    exact .inl rfl

theorem oneOrMore_written (rest : List Char) :
    ∀ (as : List α) (a : α) (ticks : List Char), as.length < ticks.length →
      (∀ b ∈ a :: as, ∀ rest, Ends rest → element (text b ++ rest) = .ok (b, rest)) →
        Run.oneOrMore close element ticks (text a ++ (separated close text as ++ rest))
          = ⟨a :: as, none, rest⟩
  | as, a, [], hlen, _ => by simp at hlen
  | [], a, _ :: ticks, _, hread => by
    have hspace : isSpace close = false := by rcases hclose with rfl | rfl <;> decide
    rw [Run.oneOrMore, hread a List.mem_cons_self _ (ends_separated hclose [] rest)]
    simp only [separated, List.singleton_append, Run.after, skipSpace_cons hspace, if_true]
    rfl
  | b :: as, a, _ :: ticks, hlen, hread => by
    have hne : ',' ≠ close := by rcases hclose with rfl | rfl <;> decide
    simp only [List.length_cons] at hlen
    have hmore := oneOrMore_written rest as b ticks (by omega)
      fun c hc => hread c (List.mem_cons_of_mem a hc)
    rw [Run.oneOrMore, hread a List.mem_cons_self _ (ends_separated hclose (b :: as) rest)]
    simp only [separated, List.cons_append, List.append_assoc, Run.after,
      skipSpace_cons (c := ',') (by decide), hne, if_false, if_true, hmore]
    rfl

variable (element) in
/-- Elements are read back between brackets, if each of them is by itself and begins with neither a
space nor the closing bracket. -/
theorem many_written (as : List α) (rest : List Char)
    (hread : ∀ b ∈ as, ∀ rest, Ends rest → element (text b ++ rest) = .ok (b, rest))
    (hhead : ∀ b ∈ as, ∃ c cs, text b = c :: cs ∧ isSpace c = false ∧ c ≠ close) :
    Run.many close element (listed close text as ++ rest) = ⟨as, none, rest⟩ := by
  rcases as with _ | ⟨a, as⟩
  · have hspace : isSpace close = false := by rcases hclose with rfl | rfl <;> decide
    simp [listed, Run.many, skipSpace_cons hspace]
  · obtain ⟨c, cs, hcs, hspace, hne⟩ := hhead a List.mem_cons_self
    have hlen := length_separated close text as
    have hmore := oneOrMore_written hclose rest as a
      (text a ++ (separated close text as ++ rest)) (by simp only [List.length_append]; omega) hread
    rw [hcs, List.cons_append] at hmore
    simp only [listed, hcs, List.append_assoc, List.cons_append, Run.many, skipSpace_cons hspace,
      hne, if_false, hmore]

end Runs

section Values

theorem writtenMoreItems_eq (vs : List Value) :
    writtenMoreItems vs = separated ']' Value.written vs := by
  induction vs with
  | nil => simp only [writtenMoreItems, separated]
  | cons v vs ih => simp only [writtenMoreItems, separated, ih]

theorem writtenItems_eq (vs : List Value) : writtenItems vs = listed ']' Value.written vs := by
  rcases vs with _ | ⟨v, vs⟩ <;> simp only [writtenItems, listed, writtenMoreItems_eq]

def writtenMember (m : String × Value) : List Char := encoded m.1 ++ ':' :: m.2.written

theorem writtenMoreMembers_eq (ms : List (String × Value)) :
    writtenMoreMembers ms = separated '\x7d' writtenMember ms := by
  induction ms with
  | nil => simp only [writtenMoreMembers, separated]
  | cons m ms ih =>
    simp only [writtenMoreMembers, separated, writtenMember, ih, List.append_assoc,
      List.cons_append]

theorem writtenMembers_eq (ms : List (String × Value)) :
    writtenMembers ms = listed '\x7d' writtenMember ms := by
  rcases ms with _ | ⟨m, ms⟩ <;>
    simp only [writtenMembers, listed, writtenMember, writtenMoreMembers_eq, List.append_assoc,
      List.cons_append]

theorem toDigits_opens (n : Nat) : ∃ c cs, Nat.toDigits 10 n = c :: cs ∧ isDigit c = true := by
  rcases hds : Nat.toDigits 10 n with _ | ⟨c, cs⟩
  · simp at hds
  · exact ⟨c, cs, rfl, isDigit_of_mem_toDigits (hds ▸ List.mem_cons_self)⟩

theorem isSpace_of_isDigit {c : Char} (hc : isDigit c = true) : isSpace c = false := by
  rcases hs : isSpace c with _ | _
  · rfl
  · simp only [isSpace, Bool.or_eq_true, decide_eq_true_eq] at hs
    rcases hs with ((rfl | rfl) | rfl) | rfl <;> exact absurd hc (by decide)

/-- The text of a value begins with neither a space nor a closing bracket. -/
theorem head_written {depth : Nat} {v : Value} (hv : v.Intact depth) :
    ∃ c cs, v.written = c :: cs ∧ isSpace c = false ∧ c ≠ ']' := by
  cases hv with
  | natural n =>
    obtain ⟨c, cs, hds, hc⟩ := toDigits_opens n.toNat
    refine ⟨c, cs, hds, isSpace_of_isDigit hc, ?_⟩
    rintro rfl
    exact absurd hc (by decide)
  | boolean b => cases b <;> exact ⟨_, _, rfl, by decide, by decide⟩
  | null => exact ⟨_, _, rfl, by decide, by decide⟩
  | negative => exact ⟨_, _, rfl, by decide, by decide⟩
  | text => exact ⟨_, _, rfl, by decide, by decide⟩
  | list => exact ⟨_, _, rfl, by decide, by decide⟩
  | object => exact ⟨_, _, rfl, by decide, by decide⟩

theorem value_of_scalar (depth : Nat) {c : Char} (hspace : isSpace c = false) (hlist : c ≠ '[')
    (hobject : c ≠ '\x7b') (cs : List Char) : value depth (c :: cs) = scalar (c :: cs) := by
  cases depth with
  | zero => rw [value, skipSpace_cons hspace]
  | succ depth => simp only [value, skipSpace_cons hspace, hlist, hobject, if_false]

theorem value_natural (depth : Nat) (n : Word) {rest : List Char} (hr : Ends rest) :
    value depth (Nat.toDigits 10 n.toNat ++ rest) = (.natural n, rest) := by
  obtain ⟨c, cs, hds, hc⟩ := toDigits_opens n.toNat
  have hne : ∀ d, isDigit d = false → c ≠ d := by
    rintro d hd rfl
    simp [hd] at hc
  have hnumber := number_natural n hr
  rw [hds, List.cons_append] at hnumber ⊢
  rw [value_of_scalar depth (isSpace_of_isDigit hc) (hne _ (by decide)) (hne _ (by decide))]
  simp [scalar, hne _ (by decide : isDigit '\x22' = false), hne _ (by decide : isDigit 'n' = false),
    hne _ (by decide : isDigit 't' = false), hne _ (by decide : isDigit 'f' = false), hc, hnumber]

theorem value_text (depth : Nat) (s : String) (rest : List Char) :
    value depth (encoded s ++ rest) = (.text s, rest) := by
  rw [encoded, List.cons_append, value_of_scalar depth (by decide) (by decide) (by decide)]
  simp only [scalar, if_true, List.append_assoc, List.singleton_append, string_encoded]

theorem member_written {depth : Nat} {m : String × Value}
    (hm : ∀ rest, Ends rest → value depth (m.2.written ++ rest) = (m.2, rest))
    {rest : List Char} (hr : Ends rest) :
    member (value depth) (writtenMember m ++ rest) = .ok (m, rest) := by
  simp only [writtenMember, encoded, member, List.cons_append, List.append_assoc,
    List.nil_append, skipSpace_cons (c := '\x22') (by decide), if_true, string_encoded, bind,
    Except.bind, behindColon, skipSpace_cons (c := ':') (by decide), hm rest hr]
  rfl

/-- A value without flaws is read back from the text it is written as. -/
theorem value_written {depth : Nat} {v : Value} (hv : v.Intact depth) :
    ∀ rest, Ends rest → value depth (v.written ++ rest) = (v, rest) := by
  induction hv with
  | @null depth => exact fun rest _ => value_of_scalar depth (by decide) (by decide) (by decide) _
  | @boolean depth b =>
    intro rest _
    cases b <;> exact value_of_scalar depth (by decide) (by decide) (by decide) _
  | @natural depth n => exact fun rest hr => value_natural depth n hr
  | @negative depth n hpos hn =>
    intro rest hr
    rw [Value.written, List.cons_append, Int.natAbs_neg, Int.natAbs_natCast]
    rw [value_of_scalar depth (by decide) (by decide) (by decide)]
    exact number_negative hpos hn hr
  | @text depth s => exact fun rest _ => value_text depth s rest
  | @list depth items hitems ih =>
    intro rest _
    have hmany := many_written (fun cs => .ok (value depth cs)) (.inl rfl) items rest
      (fun v hv rest hr => congrArg Except.ok (ih v hv rest hr))
      (fun v hv => head_written (hitems v hv))
    simp only [Value.written, writtenItems_eq, List.cons_append, value,
      skipSpace_cons (c := '[') (by decide), if_true, hmany]
  | @object depth members hmembers ih =>
    intro rest _
    have hmany := many_written (member (value depth)) (.inr rfl) members rest
      (fun m hm rest hr => member_written (ih m hm) hr)
      (fun m hm => ⟨_, _, rfl, by decide, by decide⟩)
    have hne : '\x7b' ≠ '[' := by decide
    simp only [Value.written, writtenMembers_eq, List.cons_append, value,
      skipSpace_cons (c := '\x7b') (by decide), hne, if_false, if_true, hmany]

/-- So is a whole text that holds nothing else. -/
theorem ofText_written {depth : Nat} {v : Value} (hv : v.Intact depth) :
    Document.ofText depth v.written = ⟨v, none⟩ := by
  have hread := value_written hv [] (by simp [Ends])
  rw [List.append_nil] at hread
  simp [Document.ofText, hread, skipSpace]

end Values

end MixedStack.Json
