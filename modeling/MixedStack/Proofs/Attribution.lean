import MixedStack.Proofs.Independence

/-!
# Which function an instruction belongs to

Code is told by the distance from its first address, a block by its last address, and the dispatch
loop by a block that was found by name and kept. As long as no code passes the last address, all of
them mean the same addresses (`Symbol.covers_iff_spans`, `Symbol.contains_block`). So an instruction
is in the dispatch loop if it lies in the code at the address of the loop's symbol, and is then
attributed to another function only where an earlier symbol overlaps that code
(`Unwinder.attributions_agree`).
-/

namespace MixedStack

namespace Symbol

/-- The address is one of the addresses of the code. -/
def Spans (s : Symbol) (pc : Word) : Prop :=
  s.address.toNat ≤ pc.toNat ∧ pc.toNat < s.address.toNat + s.size.toNat

instance (s : Symbol) (pc : Word) : Decidable (s.Spans pc) :=
  inferInstanceAs (Decidable (_ ∧ _))

/-- The code ends where a word can still tell its end. -/
def Fits (s : Symbol) : Prop :=
  0 < s.size → s.address.toNat + s.size.toNat < UInt64.size

instance (s : Symbol) : Decidable s.Fits :=
  inferInstanceAs (Decidable (_ → _))

/-- Whether an address is one of the code, none where the distance passes zero. -/
def covers? (s : Symbol) (pc : Word) : Option Bool :=
  if 0 < s.size ∧ s.address ≤ pc then
    (pc.sub? s.address).map fun distance => distance < s.size
  else some false

/-- The last address of the code, none where a step passes the first or the last address. -/
def last? (s : Symbol) : Option Word :=
  (s.address.add? s.size).bind fun stop => stop.sub? 1

/-- No address is one of both. -/
def Apart (s t : Symbol) : Prop :=
  ∀ a, ¬ (s.Spans a ∧ t.Spans a)

variable {s : Symbol} {pc : Word}

theorem covers_iff_spans : s.covers pc = true ↔ s.Spans pc := by
  unfold covers Spans
  rw [Bool.and_eq_true, decide_eq_true_eq, decide_eq_true_eq, UInt64.le_iff_toNat_le]
  refine and_congr_right fun hle => ?_
  rw [UInt64.lt_iff_toNat_lt, UInt64.toNat_sub_of_le _ _ (UInt64.le_iff_toNat_le.2 hle)]
  omega

theorem Spans.size_pos (h : s.Spans pc) : 0 < s.size.toNat := by
  have := h.1
  have := h.2
  omega

theorem covers?_eq (s : Symbol) (pc : Word) : s.covers? pc = some (s.covers pc) := by
  unfold covers? covers Word.sub?
  by_cases hle : s.address ≤ pc
  · by_cases hpos : 0 < s.size
    · simp [hle, hpos]
    · have hzero : s.size.toNat = 0 := by
        rw [UInt64.lt_iff_toNat_lt] at hpos
        simpa using hpos
      have hnone : ¬ pc - s.address < s.size := by
        rw [UInt64.lt_iff_toNat_lt, hzero]
        omega
      simp [hpos, hnone]
  · simp [hle]

theorem Spans.toNat_stop (hfit : s.Fits) (h : s.Spans pc) :
    (s.address + s.size).toNat = s.address.toNat + s.size.toNat := by
  rw [UInt64.toNat_add]
  exact Nat.mod_eq_of_lt (hfit (UInt64.lt_iff_toNat_lt.2 h.size_pos))

theorem Spans.one_le_stop (hfit : s.Fits) (h : s.Spans pc) : 1 ≤ s.address + s.size := by
  have hpos := h.size_pos
  rw [UInt64.le_iff_toNat_le, h.toNat_stop hfit]
  show 1 ≤ _
  omega

theorem last?_eq (hfit : s.Fits) (h : s.Spans pc) : s.last? = some (s.address + s.size - 1) := by
  have hstop := hfit (UInt64.lt_iff_toNat_lt.2 h.size_pos)
  simp [last?, Word.add?, Word.sub?, hstop, h.one_le_stop hfit]

/-- The block of code that fits ends with the last address of the code. -/
theorem contains_block (hfit : s.Fits) (h : s.Spans pc) (generation : Nat) (a : Word) :
    CodeBlock.contains ⟨s.address, s.address + s.size - 1, generation⟩ a = true ↔ s.Spans a := by
  have hpos := h.size_pos
  have hlast : (s.address + s.size - 1).toNat = s.address.toNat + s.size.toNat - 1 := by
    rw [UInt64.toNat_sub_of_le _ _ (h.one_le_stop hfit), h.toNat_stop hfit]
    rfl
  simp only [CodeBlock.contains, Spans, Bool.and_eq_true, decide_eq_true_eq,
    UInt64.le_iff_toNat_le, hlast]
  omega

end Symbol

namespace Replay

/-- The symbol at a place of the table is the first whose code has the address. -/
def FoundAt (p : Replay) (pc : Word) (i : Nat) (s : Symbol) : Prop :=
  p.symbols[i]? = some s ∧ s.Spans pc ∧ ∀ j < i, ∀ t, p.symbols[j]? = some t → ¬ t.Spans pc

/-- The symbol at a place of the table is the first whose code has the address of the first symbol
with a name. -/
def NamedAt (p : Replay) (name : String) (i : Nat) (s : Symbol) : Prop :=
  ∃ t, (p.symbols.find? fun t => t.name = name) = some t ∧ p.FoundAt t.address i s

variable {p : Replay} {pc : Word} {i j : Nat} {s t : Symbol}

theorem code?_eq_some_iff : p.code? pc = some s ↔ ∃ i, p.FoundAt pc i s := by
  unfold code?
  rw [List.find?_eq_some_iff_getElem, Symbol.covers_iff_spans]
  constructor
  · rintro ⟨hspans, i, hi, rfl, hbefore⟩
    refine ⟨i, List.getElem?_eq_getElem hi, hspans, fun j hj t ht => ?_⟩
    obtain ⟨-, rfl⟩ := List.getElem?_eq_some_iff.1 ht
    have hcovers := hbefore j hj
    rw [Bool.not_eq_true'] at hcovers
    rw [← Symbol.covers_iff_spans, hcovers]
    simp
  · rintro ⟨i, hs, hspans, hbefore⟩
    obtain ⟨hi, rfl⟩ := List.getElem?_eq_some_iff.1 hs
    refine ⟨hspans, i, hi, rfl, fun j hj => ?_⟩
    rw [Bool.not_eq_true', Bool.eq_false_iff, ne_eq, Symbol.covers_iff_spans]
    exact hbefore j hj _ (List.getElem?_eq_getElem (Nat.lt_trans hj hi))

theorem FoundAt.code? (h : p.FoundAt pc i s) : p.code? pc = some s :=
  code?_eq_some_iff.2 ⟨i, h⟩

theorem FoundAt.mem (h : p.FoundAt pc i s) : s ∈ p.symbols :=
  List.mem_of_getElem? h.1

/-- Other code that has an address comes behind the first that has it, and overlaps it. -/
theorem FoundAt.overlaps (h : p.FoundAt pc i s) (ht : p.symbols[j]? = some t) (hspans : t.Spans pc)
    (hne : i ≠ j) : i < j ∧ ¬ s.Apart t := by
  have hle : i ≤ j := Nat.le_of_not_lt fun hj => h.2.2 j hj t ht hspans
  exact ⟨by omega, fun hapart => hapart pc ⟨h.2.1, hspans⟩⟩

theorem foundAt_of_pairwise (hapart : p.symbols.Pairwise Symbol.Apart)
    (hs : p.symbols[i]? = some s) (hspans : s.Spans pc) : p.FoundAt pc i s := by
  refine ⟨hs, hspans, fun j hj t ht hspan => ?_⟩
  obtain ⟨hi, rfl⟩ := List.getElem?_eq_some_iff.1 hs
  obtain ⟨hj', rfl⟩ := List.getElem?_eq_some_iff.1 ht
  exact List.pairwise_iff_getElem.1 hapart j i hj' hi hj pc ⟨hspan, hspans⟩

/-- The block at an instruction is that of the code that is found for it. -/
theorem FoundAt.block (h : p.FoundAt pc i s) (hfit : s.Fits) :
    ∃ b, p.blockAt? pc = some b ∧ b.start = s.address ∧ s.last? = some b.last
      ∧ ∀ a, b.contains a = true ↔ s.Spans a := by
  refine ⟨⟨s.address, s.address + s.size - 1, p.generation⟩, ?_, rfl, ?_, ?_⟩
  · simp only [blockAt?, h.code?, Option.map_some]
  · exact Symbol.last?_eq hfit h.2.1
  · exact Symbol.contains_block hfit h.2.1 p.generation

theorem NamedAt.getElem? {name : String} (h : p.NamedAt name i s) : p.symbols[i]? = some s := by
  obtain ⟨t, -, hfound⟩ := h
  exact hfound.1

theorem NamedAt.unique {name : String} (h : p.NamedAt name i s) (h' : p.NamedAt name j t) :
    s = t := by
  obtain ⟨x, hx, hs⟩ := h
  obtain ⟨y, hy, ht⟩ := h'
  obtain rfl := Option.some.inj (hx.symm.trans hy)
  exact Option.some.inj (hs.code?.symm.trans ht.code?)

theorem blockOf?_eq_map (p : Replay) (name : String) :
    p.blockOf? name = ((p.symbols.find? fun t => t.name = name).bind fun t => p.code? t.address).map
      fun s => ⟨s.address, s.address + s.size - 1, p.generation⟩ := by
  simp only [blockOf?, lookup, Option.bind_map, Option.map_bind]
  rfl

/-- An instruction lies in the block at the address of a symbol if it lies in the code there. -/
theorem inBlockOf_iff (hfit : ∀ s ∈ p.symbols, s.Fits) (name : String) (pc : Word) :
    p.inBlockOf name pc = true ↔ ∃ i s, p.NamedAt name i s ∧ s.Spans pc := by
  have hnamed : ∀ s, ((p.symbols.find? fun t => t.name = name).bind fun t => p.code? t.address)
      = some s ↔ ∃ i, p.NamedAt name i s := by
    intro s
    simp only [Option.bind_eq_some_iff, code?_eq_some_iff, NamedAt]
    constructor
    · rintro ⟨t, ht, i, hi⟩
      exact ⟨i, t, ht, hi⟩
    · rintro ⟨i, t, ht, hi⟩
      exact ⟨t, ht, i, hi⟩
  rw [inBlockOf, blockOf?_eq_map, Option.any_map, Option.any_eq_true]
  constructor
  · rintro ⟨s, hs, hcontains⟩
    obtain ⟨i, t, ht, hi⟩ := (hnamed s).1 hs
    exact ⟨i, s, ⟨t, ht, hi⟩, (Symbol.contains_block (hfit s hi.mem) hi.2.1 _ pc).1 hcontains⟩
  · rintro ⟨i, s, hi, hspans⟩
    refine ⟨s, (hnamed s).2 ⟨i, hi⟩, ?_⟩
    obtain ⟨t, -, hi⟩ := hi
    exact (Symbol.contains_block (hfit s hi.mem) hi.2.1 _ pc).2 hspans

theorem NamedAt.inBlockOf_iff {name : String} (h : p.NamedAt name i s)
    (hfit : ∀ s ∈ p.symbols, s.Fits) : p.inBlockOf name pc = true ↔ s.Spans pc := by
  rw [Replay.inBlockOf_iff hfit]
  refine ⟨?_, fun hspans => ⟨i, s, h, hspans⟩⟩
  rintro ⟨j, t, ht, hspans⟩
  rwa [h.unique ht]

end Replay

namespace Unwinder

/-- An unwinder has a turn, or is asked whether an instruction belongs to the dispatch loop. -/
inductive Request where
  | turn (t : Turn)
  | inLoop (pc : Word)

def attend : Replay × Unwinder → Request → Replay × Unwinder
  | x, .turn t => (turn x t).1
  | (p, u), .inLoop pc => (p, (u.inLoop p.host pc).value.1)

/-- A program and its unwinder, new at first, after requests. -/
def attended (p : Replay) (s : Settings) (rs : List Request) : Replay × Unwinder :=
  rs.foldl attend (p, new s)

variable {p : Replay} {s : Settings} {u : Unwinder}

theorem Serves.inLoop (hu : u.Serves p s) (pc : Word) :
    (u.inLoop p.host pc).value.2 = p.inBlockOf s.loopSymbol pc
      ∧ (u.inLoop p.host pc).value.1.Serves p s := by
  obtain ⟨hv, hs, hc⟩ := hu.coherent.contains pc
  rw [hu.symbol] at hv hs
  exact ⟨hv, hu.settings, hs, hc⟩

theorem Serves.attend (hu : u.Serves p s) (r : Request) :
    (attend (p, u) r).2.Serves (attend (p, u) r).1 s := by
  cases r with
  | turn t => exact (turn_refines s (p, u) (p, u.walk?) t ⟨hu, rfl⟩).2.1
  | inLoop pc => exact (hu.inLoop pc).2

theorem serves_attended (p : Replay) (s : Settings) (rs : List Request) :
    (attended p s rs).2.Serves (attended p s rs).1 s := by
  induction rs using List.reverseRecOn with
  | nil => exact serves_new p s
  | append_singleton rs r ih =>
    simp only [attended, List.foldl_append, List.foldl_cons, List.foldl_nil] at ih ⊢
    exact ih.attend r

/-- A function and a block are found for the same instructions, both of the first symbol whose code
has the instruction, and the block has the addresses of that code. An instruction is in the dispatch
loop if it is in the code at the address of the loop's symbol, and is found to be in other code only
if that comes first in the table and overlaps it. -/
theorem attributions_agree (p₀ : Replay) (s : Settings) (rs : List Request)
    (hfit : ∀ x ∈ (attended p₀ s rs).1.symbols, x.Fits) :
    let p := (attended p₀ s rs).1
    let inside := fun pc => ((attended p₀ s rs).2.inLoop p.host pc).value.2
    (∀ pc, ((p.blockAt? pc).isSome ↔ (p.functionAt? pc).isSome)
        ∧ ((p.functionAt? pc).isSome ↔ ∃ i x, p.FoundAt pc i x)
        ∧ (∀ x ∈ p.symbols, x.covers? pc = some (x.covers pc))
        ∧ ∀ i x, p.FoundAt pc i x → p.functionAt? pc = some x.name
          ∧ ∃ b, p.blockAt? pc = some b ∧ b.start = x.address ∧ x.last? = some b.last
            ∧ ∀ a, b.contains a = true ↔ x.Spans a)
      ∧ (∀ k c, p.NamedAt s.loopSymbol k c →
        (∀ pc, inside pc = true ↔ c.Spans pc)
          ∧ (∀ pc, p.FoundAt pc k c → inside pc = true)
          ∧ (∀ pc i x, inside pc = true → p.FoundAt pc i x → i ≠ k → i < k ∧ ¬ x.Apart c)
          ∧ (p.symbols.Pairwise Symbol.Apart → ∀ pc, inside pc = true ↔ p.FoundAt pc k c))
      ∧ ((¬ ∃ k c, p.NamedAt s.loopSymbol k c) → ∀ pc, inside pc = false) := by
  intro p inside
  have hinside : ∀ pc, inside pc = p.inBlockOf s.loopSymbol pc := fun pc =>
    ((serves_attended p₀ s rs).inLoop pc).1
  refine ⟨fun pc => ⟨?_, ?_, fun x _ => x.covers?_eq pc, fun i x hx => ⟨?_, ?_⟩⟩, ?_, ?_⟩
  · simp only [Replay.blockAt?, Replay.functionAt?, Option.isSome_map]
  · simp only [Replay.functionAt?, Option.isSome_map, Option.isSome_iff_exists,
      Replay.code?_eq_some_iff]
    exact exists_comm
  · simp only [Replay.functionAt?, hx.code?, Option.map_some]
  · exact hx.block (hfit x hx.mem)
  · intro k c hc
    have hspans : ∀ pc, inside pc = true ↔ c.Spans pc := fun pc => by
      rw [hinside, hc.inBlockOf_iff hfit]
    refine ⟨hspans, fun pc h => (hspans pc).2 h.2.1, fun pc i x hpc hx hne => ?_,
      fun hapart pc => ⟨fun hpc => ?_, fun h => (hspans pc).2 h.2.1⟩⟩
    · exact hx.overlaps hc.getElem? ((hspans pc).1 hpc) hne
    · exact Replay.foundAt_of_pairwise hapart hc.getElem? ((hspans pc).1 hpc)
  · intro hnone pc
    rw [Bool.eq_false_iff, ne_eq, hinside, Replay.inBlockOf_iff hfit]
    rintro ⟨k, c, hc, -⟩
    exact hnone ⟨k, c, hc⟩

/-- A program that is laid out anew behind the first question, so that the dispatch loop lies
elsewhere, and has a function inside it that comes first in the table. -/
def relaid : Replay × Unwinder :=
  attended ⟨[⟨Settings.standard.loopSymbol, 0x5000, 0x100⟩], [], [], 0, 0⟩ .standard
    [.inLoop 0x5010, .turn (.move (.reloadWith
      [⟨"b9::primitive_call", 0x1080, 0x20⟩, ⟨Settings.standard.loopSymbol, 0x1000, 0x100⟩]))]

theorem attributions_agree_relaid :
    let call : Symbol := ⟨"b9::primitive_call", 0x1080, 0x20⟩
    let loop : Symbol := ⟨Settings.standard.loopSymbol, 0x1000, 0x100⟩
    (∀ x ∈ relaid.1.symbols, x.Fits)
      ∧ relaid.1.NamedAt Settings.standard.loopSymbol 1 loop
      ∧ relaid.1.FoundAt 0x1090 0 call
      ∧ relaid.1.functionAt? 0x1090 = some call.name
      ∧ (relaid.2.inLoop relaid.1.host 0x1090).value.2 = true
      ∧ ¬ call.Apart loop
      ∧ (relaid.2.inLoop relaid.1.host 0x5010).value.2 = false := by
  intro call loop
  have hfit : ∀ x ∈ relaid.1.symbols, x.Fits := by decide +kernel
  have hcall : relaid.1.FoundAt 0x1090 0 call :=
    ⟨rfl, by decide, fun j hj => absurd hj (Nat.not_lt_zero j)⟩
  have hloop : relaid.1.NamedAt Settings.standard.loopSymbol 1 loop := by
    refine ⟨loop, rfl, rfl, by decide, fun j hj t ht => ?_⟩
    obtain rfl : j = 0 := by omega
    obtain rfl : call = t := Option.some.inj ht
    decide
  obtain ⟨hplaces, hloops, -⟩ := attributions_agree _ .standard _ hfit
  obtain ⟨hinside, -, hothers, -⟩ := hloops 1 loop hloop
  have hin := (hinside 0x1090).2 (by decide)
  refine ⟨hfit, hloop, hcall, ((hplaces 0x1090).2.2.2 0 call hcall).1, hin,
    (hothers 0x1090 0 call hin hcall (by decide)).2, ?_⟩
  exact Bool.eq_false_iff.2 fun h => absurd ((hinside 0x5010).1 h) (by decide)

end Unwinder

end MixedStack
