import Mathlib.Data.List.Induction
import MixedStack.Proofs.Coherence
import MixedStack.Proofs.Turns

/-!
# How often the dispatch loop is sought

Whatever a dispatch loop was asked, and however often the program ran on or was laid out anew, it
answers by the symbols of now (`DispatchLoop.answers_anew`). It asks for a symbol only until it
has found the block in the current layout: a success is sought once for each layout, a failure every
time.
-/

namespace MixedStack

namespace DispatchLoop

/-- A dispatch loop is asked for its block or about an instruction, or the program goes on. -/
inductive Turn where
  | resolve
  | contains (pc : Word)
  | move (m : Replay.Move)

def turn : Replay × DispatchLoop → Turn → Replay × DispatchLoop
  | (p, l), .resolve => (p, (l.resolve p.host).value.1)
  | (p, l), .contains pc => (p, (l.contains p.host pc).value.1)
  | (p, l), .move m => (p.move m, l)

/-- A program and its dispatch loop, new at first, after turns. -/
def after (p : Replay) (symbol : String) (ts : List Turn) : Replay × DispatchLoop :=
  ts.foldl turn (p, named symbol)

/-- The turn is a question, and the block is found for it. -/
def Turn.Finds (x : Replay × DispatchLoop) : Turn → Prop
  | .resolve | .contains _ => (x.2.resolve x.1.host).value.2.isSome
  | .move _ => False

def Turn.Relays : Turn → Prop
  | .resolve | .contains _ => False
  | .move m => m.Relays

/-- A question found the block, and the code was not laid out anew behind it. -/
def FoundInLayout (p : Replay) (symbol : String) : List Turn → Prop :=
  Since (fun before t => t.Finds (after p symbol before)) Turn.Relays

variable {p : Replay} {l : DispatchLoop}

theorem lookups_seek (h : Host) (l : DispatchLoop) : (l.seek h).lookups = 1 := by
  rw [seek, Traced.lookups_bind, Traced.lookups_lookup]
  rcases (Traced.lookup h l.symbol).value with _ | addr
  · rfl
  rcases hb : h.blockAt addr with _ | b
  · simp only [hb, Traced.lookups_pure, Nat.add_zero]
  · simp only [hb, Traced.lookups_bind, Traced.lookups_note, Traced.lookups_pure, Nat.add_zero]

/-- The block that needs no seeking. -/
def kept? (p : Replay) (l : DispatchLoop) : Option CodeBlock :=
  l.block.filter p.host.isCurrent

theorem lookups_resolve (p : Replay) (l : DispatchLoop) :
    (l.resolve p.host).lookups = if (kept? p l).isSome then 0 else 1 := by
  unfold DispatchLoop.resolve kept?
  rcases l.block.filter p.host.isCurrent with _ | b
  · exact lookups_seek p.host l
  · rfl

theorem lookups_contains (h : Host) (pc : Word) (l : DispatchLoop) :
    (l.contains h pc).lookups = (l.resolve h).lookups := by
  simp only [contains, Traced.lookups_bind, Traced.lookups_pure, Nat.add_zero]

theorem kept?_eq_some {b : CodeBlock} :
    kept? p l = some b ↔ l.block = some b ∧ b.generation = p.generation := by
  simp only [kept?, Option.filter_eq_some_iff, Replay.host, decide_eq_true_eq]

/-- A question leaves kept what it found. -/
theorem kept?_resolve (hl : l.Coherent p) :
    kept? p (l.resolve p.host).value.1 = (l.resolve p.host).value.2 := by
  rw [hl.resolve.1]
  unfold DispatchLoop.resolve
  rcases hk : l.block.filter p.host.isCurrent with _ | b
  · simp only [seek_value]
    rcases hb : p.blockOf? l.symbol with _ | b
    · rfl
    · exact kept?_eq_some.2 ⟨rfl, Replay.generation_of_blockOf? hb⟩
  · have hb := kept?_eq_some.1 hk
    exact hk.trans (hl.current b hb.1 hb.2).symm

theorem kept?_move_of_relays (hl : l.Coherent p) {m : Replay.Move} (hm : m.Relays) :
    kept? (p.move m) l = none := by
  rcases hk : kept? (p.move m) l with _ | b
  · rfl
  · obtain ⟨hb, hg⟩ := kept?_eq_some.1 hk
    have hle := hl.generation_le b hb
    have hnext := Replay.generation_move_of_relays hm p
    omega

theorem kept?_move_of_not_relays {m : Replay.Move} (hm : ¬ m.Relays) :
    kept? (p.move m) l = kept? p l := by
  simp only [kept?, Replay.host, Replay.generation_move_of_not_relays hm p]

theorem Coherent.move (hl : l.Coherent p) (m : Replay.Move) : l.Coherent (p.move m) := by
  cases m with
  | resume => exact hl.resume
  | reload => exact hl.reloadWith p.symbols
  | reloadWith symbols => exact hl.reloadWith symbols

/-- A turn keeps what is kept coherent. A block is kept behind it if the turn found it, or if it was
kept before and the code was not laid out anew. -/
theorem Coherent.turn (hl : l.Coherent p) (t : Turn) :
    (turn (p, l) t).2.Coherent (turn (p, l) t).1
      ∧ (turn (p, l) t).2.symbol = l.symbol
      ∧ ((kept? (turn (p, l) t).1 (turn (p, l) t).2).isSome
        ↔ t.Finds (p, l) ∨ ¬ t.Relays ∧ (kept? p l).isSome) := by
  have hfound : (kept? p l).isSome → (l.resolve p.host).value.2.isSome := by
    intro hk
    obtain ⟨b, hb⟩ := Option.isSome_iff_exists.1 hk
    obtain ⟨hblock, hg⟩ := kept?_eq_some.1 hb
    rw [hl.resolve.1, hl.current b hblock hg]
    rfl
  obtain ⟨-, hs, hc⟩ := hl.resolve
  have hask : (kept? p (l.resolve p.host).value.1).isSome
      ↔ (l.resolve p.host).value.2.isSome ∨ ¬ False ∧ (kept? p l).isSome := by
    rw [kept?_resolve hl]
    tauto
  cases t with
  | resolve => exact ⟨hc, hs, hask⟩
  | contains pc => exact ⟨hc, hs, hask⟩
  | move m =>
    refine ⟨hl.move m, rfl, ?_⟩
    show (kept? (p.move m) l).isSome ↔ False ∨ ¬ m.Relays ∧ (kept? p l).isSome
    by_cases hm : m.Relays
    · simp [kept?_move_of_relays hl hm, hm]
    · simp [kept?_move_of_not_relays hm, hm]

theorem after_concat (p : Replay) (symbol : String) (ts : List Turn) (t : Turn) :
    after p symbol (ts ++ [t]) = turn (after p symbol ts) t := by
  simp only [after, List.foldl_append, List.foldl_cons, List.foldl_nil]

/-- What is kept after turns is coherent, and a block is kept if one was found in this layout. -/
theorem coherent_after (p : Replay) (symbol : String) (ts : List Turn) :
    (after p symbol ts).2.Coherent (after p symbol ts).1
      ∧ (after p symbol ts).2.symbol = symbol
      ∧ ((kept? (after p symbol ts).1 (after p symbol ts).2).isSome
        ↔ FoundInLayout p symbol ts) := by
  induction ts using List.reverseRecOn with
  | nil => exact ⟨coherent_named p symbol, rfl, nofun, fun h => absurd h not_since_nil⟩
  -- on the last turn, since what is kept shows only what the turns before it have left
  | append_singleton ts t ih =>
    obtain ⟨hl, hs, hk⟩ := ih
    obtain ⟨hl', hs', hk'⟩ := hl.turn t
    rw [after_concat]
    refine ⟨hl', hs'.trans hs, hk'.trans ?_⟩
    rw [FoundInLayout, since_concat, hk]
    rfl

/-- After any turns, a dispatch loop is in the first code that covers the address of the first symbol
with its name, as the program is laid out now. A question asks for that symbol once, or not at all
if one in this layout found the block. -/
theorem answers_anew (p : Replay) (symbol : String) (ts : List Turn) :
    let q := (after p symbol ts).1
    let l := (after p symbol ts).2
    let code := (q.symbols.find? fun x => x.name = symbol).bind fun x =>
      q.symbols.find? fun y => y.covers x.address
    (l.resolve q.host).value.2
        = code.map (fun y => ⟨y.address, y.address + y.size - 1, q.generation⟩)
      ∧ (∀ pc, (l.contains q.host pc).value.2
        = code.any fun y => y.address ≤ pc && pc ≤ y.address + y.size - 1)
      ∧ (FoundInLayout p symbol ts ∧ (l.resolve q.host).lookups = 0
          ∧ (∀ pc, (l.contains q.host pc).lookups = 0)
        ∨ ¬ FoundInLayout p symbol ts ∧ (l.resolve q.host).lookups = 1
          ∧ ∀ pc, (l.contains q.host pc).lookups = 1) := by
  intro q l code
  obtain ⟨hl, hs, hk⟩ := coherent_after p symbol ts
  have hblock : q.blockOf? symbol
      = code.map fun y => ⟨y.address, y.address + y.size - 1, q.generation⟩ := by
    simp only [Replay.blockOf?, Replay.lookup, code, Option.bind_map, Option.map_bind]
    rfl
  refine ⟨?_, fun pc => ?_, ?_⟩
  · rw [hl.resolve.1, hs, hblock]
  · rw [(hl.contains pc).1, hs, Replay.inBlockOf, hblock, Option.any_map]
    rfl
  · simp only [lookups_contains, lookups_resolve, q, l]
    by_cases hf : FoundInLayout p symbol ts
    · exact .inl ⟨hf, if_pos (hk.2 hf), fun _ => if_pos (hk.2 hf)⟩
    · exact .inr ⟨hf, if_neg (mt hk.1 hf), fun _ => if_neg (mt hk.1 hf)⟩

end DispatchLoop

end MixedStack
