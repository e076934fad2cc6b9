import MixedStack.DispatchLoop
import MixedStack.Replay

/-!
# The kept block of the dispatch loop

A block is kept with the layout it was found in, and a replay counts its layouts. While the kept
block is none of a later layout, and of the current one only if seeking would find it
(`DispatchLoop.Coherent`), asking for the loop answers what seeking anew would answer
(`Coherent.contains`). Queries, resuming and laying out the code anew all keep it so.
-/

namespace MixedStack

namespace Replay

/-- The block of the code at the address of a symbol. -/
def blockOf? (p : Replay) (symbol : String) : Option CodeBlock :=
  (p.lookup symbol).bind p.blockAt?

/-- Whether an instruction lies in the block at the address of a symbol. -/
def inBlockOf (p : Replay) (symbol : String) (pc : Word) : Bool :=
  (p.blockOf? symbol).any fun b => b.contains pc

theorem generation_of_blockOf? {p : Replay} {symbol : String} {b : CodeBlock}
    (h : p.blockOf? symbol = some b) : b.generation = p.generation := by
  obtain ⟨addr, -, hb⟩ := Option.bind_eq_some_iff.1 h
  obtain ⟨s, -, rfl⟩ := Option.map_eq_some_iff.1 hb
  rfl

theorem inBlockOf_congr {p q : Replay} (h : q.symbols = p.symbols) (symbol : String) (pc : Word) :
    q.inBlockOf symbol pc = p.inBlockOf symbol pc := by
  have hl : q.lookup symbol = p.lookup symbol := by simp only [lookup, h]
  have hc : ∀ addr, q.code? addr = p.code? addr := fun addr => by simp only [code?, h]
  simp only [inBlockOf, blockOf?, hl]
  rcases p.lookup symbol with _ | addr
  · rfl
  · simp only [Option.bind_some, blockAt?, hc, Option.any_map]
    rfl

end Replay

namespace DispatchLoop

/-- What is kept is no newer than the layout, and of the current layout only if seeking would find
it. -/
structure Coherent (p : Replay) (l : DispatchLoop) : Prop where
  generation_le : ∀ b ∈ l.block, b.generation ≤ p.generation
  current : ∀ b ∈ l.block, b.generation = p.generation → p.blockOf? l.symbol = some b

theorem coherent_named (p : Replay) (symbol : String) : (named symbol).Coherent p := by
  constructor <;> simp [named]

theorem coherent_of_blockOf? {p : Replay} {symbol : String} {b : CodeBlock}
    (h : p.blockOf? symbol = some b) : Coherent p ⟨symbol, some b⟩ := by
  constructor
  · intro b' hb
    obtain rfl : b = b' := by simpa using hb
    exact Nat.le_of_eq (Replay.generation_of_blockOf? h)
  · intro b' hb _
    obtain rfl : b = b' := by simpa using hb
    exact h

theorem seek_value (p : Replay) (l : DispatchLoop) :
    (l.seek p.host).value = (⟨l.symbol, p.blockOf? l.symbol⟩, p.blockOf? l.symbol) := by
  have hlookup : p.host.lookup = p.lookup := rfl
  have hblock : p.host.blockAt = p.blockAt? := rfl
  simp only [seek, Traced.value_bind, Traced.lookup, Replay.blockOf?, hlookup, hblock]
  rcases p.lookup l.symbol with _ | addr
  · rfl
  · rw [Option.bind_some]
    simp only
    rcases p.blockAt? addr with _ | b <;> rfl

/-- Asking for the loop answers what seeking it anew would, and keeps what is kept coherent. -/
theorem Coherent.resolve {p : Replay} {l : DispatchLoop} (h : l.Coherent p) :
    (l.resolve p.host).value.2 = p.blockOf? l.symbol
      ∧ (l.resolve p.host).value.1.symbol = l.symbol
      ∧ (l.resolve p.host).value.1.Coherent p := by
  unfold DispatchLoop.resolve
  rcases hk : l.block.filter p.host.isCurrent with _ | b
  · simp only [seek_value, true_and]
    rcases hb : p.blockOf? l.symbol with _ | b
    · exact coherent_named p l.symbol
    · exact coherent_of_blockOf? hb
  · obtain ⟨hb, hc⟩ := Option.filter_eq_some_iff.1 hk
    have hg : b.generation = p.generation := by simpa [Replay.host] using hc
    exact ⟨(h.current b hb hg).symm, rfl, h⟩

theorem Coherent.contains {p : Replay} {l : DispatchLoop} (h : l.Coherent p) (pc : Word) :
    (l.contains p.host pc).value.2 = p.inBlockOf l.symbol pc
      ∧ (l.contains p.host pc).value.1.symbol = l.symbol
      ∧ (l.contains p.host pc).value.1.Coherent p := by
  obtain ⟨hv, hs, hc⟩ := h.resolve
  refine ⟨?_, hs, hc⟩
  simp only [DispatchLoop.contains, Traced.value_bind, Traced.value_pure, hv, Replay.inBlockOf]

theorem Coherent.resume {p : Replay} {l : DispatchLoop} (h : l.Coherent p) :
    l.Coherent p.resume.value :=
  ⟨h.generation_le, h.current⟩

theorem Coherent.reloadWith {p : Replay} {l : DispatchLoop} (h : l.Coherent p)
    (symbols : List Symbol) : l.Coherent (p.reloadWith symbols).value := by
  -- What is kept is of an older layout from here on, so nothing takes it for current.
  have hg : (p.reloadWith symbols).value.generation = p.generation + 1 := rfl
  refine ⟨fun b hb => ?_, fun b hb heq => ?_⟩
  · have := h.generation_le b hb
    omega
  · have := h.generation_le b hb
    omega

end DispatchLoop

end MixedStack
