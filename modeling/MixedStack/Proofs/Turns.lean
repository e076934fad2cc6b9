import MixedStack.Replay

/-!
# Turn by turn

A debugger is asked turn by turn, and between the questions the program runs on or its code is laid
out anew (`Replay.Move`). `play` takes a state through turns and gathers what was answered. Two
states that answer alike at every turn answer alike throughout (`play_refines`), and what one turn
did holds until a later one undoes it (`Since`).
-/

namespace MixedStack

section Play

variable {σ ρ ι β : Type}

/-- The state after all turns, and what was answered. -/
def play (turn : σ → ι → σ × List β) (s : σ) : List ι → σ × List β
  | [] => (s, [])
  | i :: is =>
    let rest := play turn (turn s i).1 is
    (rest.1, (turn s i).2 ++ rest.2)

theorem play_refines {turn : σ → ι → σ × List β} {turn' : ρ → ι → ρ × List β} {R : σ → ρ → Prop}
    (h : ∀ s r i, R s r → (turn s i).2 = (turn' r i).2 ∧ R (turn s i).1 (turn' r i).1) :
    ∀ (is : List ι) {s : σ} {r : ρ}, R s r →
      (play turn s is).2 = (play turn' r is).2 ∧ R (play turn s is).1 (play turn' r is).1
  | [], _, _, hr => ⟨rfl, hr⟩
  | i :: is, s, r, hr => by
    obtain ⟨ha, hr'⟩ := h s r i hr
    obtain ⟨hrest, hlast⟩ := play_refines h is hr'
    refine ⟨?_, hlast⟩
    simp only [play, ha, hrest]

end Play

section Since

variable {ι : Type} {did : List ι → ι → Prop} {undoes : ι → Prop}

/-- One of the turns did it, behind those before it, and none behind it undid it. -/
def Since (did : List ι → ι → Prop) (undoes : ι → Prop) (is : List ι) : Prop :=
  ∃ before i later, is = before ++ i :: later ∧ (∀ j ∈ later, ¬ undoes j) ∧ did before i

theorem not_since_nil : ¬ Since did undoes [] := by
  rintro ⟨before, i, later, heq, -⟩
  simp at heq

theorem since_concat (is : List ι) (i : ι) :
    Since did undoes (is ++ [i]) ↔ did is i ∨ ¬ undoes i ∧ Since did undoes is := by
  constructor
  · rintro ⟨before, j, later, heq, hlater, hdid⟩
    rcases List.eq_nil_or_concat later with rfl | ⟨later, last, rfl⟩
    · obtain ⟨rfl, hi⟩ := List.append_inj' heq rfl
      obtain rfl : i = j := by simpa using hi
      exact .inl hdid
    · rw [List.concat_eq_append, ← List.cons_append, ← List.append_assoc] at heq
      obtain ⟨rfl, hi⟩ := List.append_inj' heq rfl
      obtain rfl : i = last := by simpa using hi
      refine .inr ⟨hlater i (by simp), before, j, later, rfl, fun k hk => ?_, hdid⟩
      exact hlater k (by simp [hk])
  · rintro (hdid | ⟨hi, before, j, later, rfl, hlater, hdid⟩)
    · exact ⟨is, i, [], rfl, by simp, hdid⟩
    · refine ⟨before, j, later ++ [i], by simp, fun k hk => ?_, hdid⟩
      rcases List.mem_append.1 hk with hk | hk
      · exact hlater k hk
      · obtain rfl : k = i := by simpa using hk
        exact hi

end Since

namespace Replay

/-- What a program does between questions. -/
inductive Move where
  | resume
  | reload
  | reloadWith (symbols : List Symbol)

def move (p : Replay) : Move → Replay
  | .resume => p.resume.value
  | .reload => p.reload.value
  | .reloadWith symbols => (p.reloadWith symbols).value

/-- The code is laid out anew. -/
def Move.Relays : Move → Prop
  | .resume => False
  | .reload | .reloadWith _ => True

theorem generation_move_of_relays {m : Move} (hm : m.Relays) (p : Replay) :
    (p.move m).generation = p.generation + 1 := by
  cases m with
  | resume => exact hm.elim
  | reload => rfl
  | reloadWith symbols => rfl

theorem generation_move_of_not_relays {m : Move} (hm : ¬ m.Relays) (p : Replay) :
    (p.move m).generation = p.generation := by
  cases m with
  | resume => rfl
  | reload => exact absurd trivial hm
  | reloadWith symbols => exact absurd trivial hm

end Replay

end MixedStack
