import MixedStack.Word

/-!
# Tables

A table keeps one entry for a word, and its entries in ascending order. `get?` is its view:
inserting changes it at one word, and a table is what it answers.
-/

namespace MixedStack

namespace Table

variable {α : Type}

/-- Puts an entry where it belongs, in the place of one for the same word. -/
def insertEntry (key : Word) (a : α) : List (Word × α) → List (Word × α)
  | [] => [(key, a)]
  | (k, b) :: es =>
    if key < k then (key, a) :: (k, b) :: es
    else if key = k then (key, a) :: es
    else (k, b) :: insertEntry key a es

theorem mem_insertEntry {key k : Word} {a b : α} {es : List (Word × α)}
    (h : (k, b) ∈ insertEntry key a es) : (k = key ∧ b = a) ∨ (k, b) ∈ es := by
  induction es with
  | nil => simpa [insertEntry] using h
  | cons e es ih =>
    obtain ⟨k', b'⟩ := e
    simp only [insertEntry] at h
    split at h
    · simp only [List.mem_cons, Prod.mk.injEq] at h ⊢
      exact h
    · split at h
      · simp only [List.mem_cons, Prod.mk.injEq] at h ⊢
        rcases h with h | h
        · exact .inl h
        · exact .inr (.inr h)
      · simp only [List.mem_cons, Prod.mk.injEq] at h ⊢
        rcases h with h | h
        · exact .inr (.inl h)
        · rcases ih h with h | h
          · exact .inl h
          · exact .inr (.inr h)

theorem pairwise_insertEntry {key : Word} {a : α} {es : List (Word × α)}
    (h : es.Pairwise fun x y => x.1 < y.1) :
    (insertEntry key a es).Pairwise fun x y => x.1 < y.1 := by
  induction es with
  | nil => simp [insertEntry]
  | cons e es ih =>
    obtain ⟨k, b⟩ := e
    rw [List.pairwise_cons] at h
    simp only [insertEntry]
    split
    case isTrue hlt =>
      refine List.pairwise_cons.2 ⟨fun x hx => ?_, List.pairwise_cons.2 h⟩
      rcases List.mem_cons.1 hx with rfl | hx
      · exact hlt
      · exact UInt64.lt_trans hlt (h.1 x hx)
    case isFalse hlt =>
      split
      case isTrue heq => exact List.pairwise_cons.2 ⟨fun x hx => heq ▸ h.1 x hx, h.2⟩
      case isFalse hne =>
        refine List.pairwise_cons.2 ⟨fun x hx => ?_, ih h.2⟩
        obtain ⟨k', b'⟩ := x
        rcases mem_insertEntry hx with ⟨rfl, _⟩ | hx
        · exact UInt64.lt_of_le_of_ne (UInt64.not_lt.1 hlt) fun h => hne h.symm
        · exact h.1 _ hx

end Table

/-- Entries by word, in ascending order. -/
structure Table (α : Type) where
  entries : List (Word × α)
  sorted : entries.Pairwise fun x y => x.1 < y.1

namespace Table

variable {α : Type}

def empty : Table α := ⟨[], .nil⟩

def insert (t : Table α) (key : Word) (a : α) : Table α :=
  ⟨insertEntry key a t.entries, pairwise_insertEntry t.sorted⟩

def get? (t : Table α) (key : Word) : Option α :=
  t.entries.lookup key

def contains (t : Table α) (key : Word) : Bool :=
  (t.get? key).isSome

def size (t : Table α) : Nat :=
  t.entries.length

def isEmpty (t : Table α) : Bool :=
  t.entries.isEmpty

@[simp] theorem get?_empty (key : Word) : (empty : Table α).get? key = none := rfl

theorem lookup_insertEntry (key k : Word) (a : α) (es : List (Word × α)) :
    (insertEntry key a es).lookup k = if k = key then some a else es.lookup k := by
  fun_induction insertEntry key a es with
  | case1 => by_cases hk : k = key <;> simp [List.lookup_cons, hk, beq_eq_false_iff_ne.2]
  | case2 => by_cases hk : k = key <;> simp [List.lookup_cons, hk, beq_eq_false_iff_ne.2]
  | case3 => by_cases hk : k = key <;> simp [List.lookup_cons, hk, beq_eq_false_iff_ne.2]
  | case4 k' b es hlt hne ih =>
    rw [List.lookup_cons, List.lookup_cons, ih]
    by_cases hk : k = key
    · simp [hk, beq_eq_false_iff_ne.2 hne]
    · simp [hk]

/-- Inserting changes a table at one word. -/
theorem get?_insert (t : Table α) (key k : Word) (a : α) :
    (t.insert key a).get? k = if k = key then some a else t.get? k :=
  lookup_insertEntry key k a t.entries

theorem contains_insert (t : Table α) (key k : Word) (a : α) :
    (t.insert key a).contains k = true ↔ k = key ∨ t.contains k = true := by
  unfold contains
  rw [get?_insert]
  split <;> simp_all

theorem lookup_eq_none_of_lt {key : Word} {es : List (Word × α)} (h : ∀ e ∈ es, key < e.1) :
    es.lookup key = none := by
  refine List.lookup_eq_none_iff.2 fun e he => ?_
  exact bne_iff_ne.2 (UInt64.ne_of_lt (h e he))

theorem length_insertEntry {key : Word} {a : α} {es : List (Word × α)}
    (h : es.Pairwise fun x y => x.1 < y.1) :
    (insertEntry key a es).length = if (es.lookup key).isSome then es.length else es.length + 1 := by
  fun_induction insertEntry key a es with
  | case1 => rfl
  | case2 k b es hlt =>
    have hnone : List.lookup key ((k, b) :: es) = none := by
      refine lookup_eq_none_of_lt fun e he => ?_
      rcases List.mem_cons.1 he with rfl | he
      · exact hlt
      · exact UInt64.lt_trans hlt ((List.pairwise_cons.1 h).1 e he)
    rw [hnone]
    rfl
  | case3 => simp
  | case4 k b es hlt hne ih =>
    rw [List.length_cons, ih (List.pairwise_cons.1 h).2, List.lookup_cons,
      beq_eq_false_iff_ne.2 hne]
    simp only [List.length_cons]
    split <;> rfl

/-- Inserting makes room for a word that is not there yet. -/
theorem size_insert (t : Table α) (key : Word) (a : α) :
    (t.insert key a).size = if t.contains key then t.size else t.size + 1 :=
  length_insertEntry t.sorted

end Table

end MixedStack
