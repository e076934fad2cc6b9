import Mathlib.Data.List.Basic
import MixedStack.Proofs.Lookups
import MixedStack.Proofs.Threads

/-!
# Threads do not meet in an unwinder

All threads share the block of the dispatch loop that an unwinder keeps, and the code may be laid out
anew while walks go on. Nothing of that shows: turn by turn, an unwinder answers as one that keeps
the walks alone and finds the block in the symbols of now (`reference`). So a thread is answered as
if nobody had asked about another, and after the program ran on as by a new unwinder
(`Unwinder.answers_by_thread`).
-/

namespace MixedStack

namespace Unwinder

/-- An unwinder is asked about a frame or told that the program ran on, or the program goes on. -/
inductive Turn where
  | unwind (f : HostFrame)
  | resumed
  | move (m : Replay.Move)

/-- What was answered, and about which thread. -/
abbrev Answer := ThreadId × Option Unwound

def turn : Replay × Unwinder → Turn → (Replay × Unwinder) × List Answer
  | (p, u), .unwind f =>
    ((p, (u.unwind p.host f).value.1), [(f.thread, (u.unwind p.host f).value.2)])
  | (p, u), .resumed => ((p, u.resumed.value), [])
  | (p, u), .move m => ((p.move m, u), [])

/-- A turn of an unwinder that keeps a walk for each thread and nothing else. -/
def reference (s : Settings) : Replay × (ThreadId → Option Walk) → Turn →
    (Replay × (ThreadId → Option Walk)) × List Answer
  | (p, walks), .unwind f =>
    let next := Walk.follow p.host s (p.inBlockOf s.loopSymbol) f (walks f.thread)
    ((p, fun t => if t = f.thread then next.1 else walks t), [(f.thread, next.2)])
  | (p, _), .resumed => ((p, fun _ => none), [])
  | (p, walks), .move m => ((p.move m, walks), [])

/-- The turn is no question about another thread. -/
def Turn.concerns (t : ThreadId) : Turn → Bool
  | .unwind f => f.thread = t
  | .resumed | .move _ => true

variable {p : Replay} {s : Settings} {u : Unwinder}

theorem Serves.move (hu : u.Serves p s) (m : Replay.Move) : u.Serves (p.move m) s :=
  ⟨hu.settings, hu.symbol, hu.coherent.move m⟩

/-- The unwinder serves the program, and the reference has the same walks. -/
def Agree (s : Settings) (x : Replay × Unwinder) (y : Replay × (ThreadId → Option Walk)) : Prop :=
  x.2.Serves x.1 s ∧ y = (x.1, x.2.walk?)

theorem turn_refines (s : Settings) (x : Replay × Unwinder)
    (y : Replay × (ThreadId → Option Walk)) (t : Turn) (h : Agree s x y) :
    (turn x t).2 = (reference s y t).2 ∧ Agree s (turn x t).1 (reference s y t).1 := by
  obtain ⟨p, u⟩ := x
  obtain ⟨hu, rfl⟩ := h
  cases t with
  | unwind f =>
    obtain ⟨hu', ha, hw⟩ := Serves.unwind hu f
    refine ⟨?_, hu', ?_⟩
    · simp only [turn, reference, ha]
    · simp only [turn, reference, funext hw]
  | resumed =>
    obtain ⟨hu', hw⟩ := Serves.resumed hu
    refine ⟨rfl, hu', ?_⟩
    simp only [turn, reference, funext hw]
  | move m => exact ⟨rfl, Serves.move hu m, rfl⟩

/-- An unwinder that serves a program answers as the reference with its walks, and is left with the
same ones. -/
theorem play_reference (hu : u.Serves p s) (ts : List Turn) :
    (play turn (p, u) ts).2 = (play (reference s) (p, u.walk?) ts).2
      ∧ (play turn (p, u) ts).1.2.Serves (play turn (p, u) ts).1.1 s
      ∧ (play (reference s) (p, u.walk?) ts).1
        = ((play turn (p, u) ts).1.1, (play turn (p, u) ts).1.2.walk?) :=
  play_refines (turn_refines s) ts ⟨hu, rfl⟩

/-- Only its walks show in what an unwinder answers, not the block it keeps. -/
theorem play_of_walks {u' : Unwinder} (hu : u.Serves p s) (hu' : u'.Serves p s)
    (hw : u.walk? = u'.walk?) (ts : List Turn) :
    (play turn (p, u) ts).2 = (play turn (p, u') ts).2
      ∧ (play turn (p, u) ts).1.2.walk? = (play turn (p, u') ts).1.2.walk? := by
  obtain ⟨ha, -, hlast⟩ := play_reference hu ts
  obtain ⟨ha', -, hlast'⟩ := play_reference hu' ts
  rw [hw] at ha hlast
  exact ⟨ha.trans ha'.symm, congrArg Prod.snd (hlast.symm.trans hlast')⟩

/-- Two states with the same program and the same walk of a thread. -/
def SameFor (t : ThreadId) (y y' : Replay × (ThreadId → Option Walk)) : Prop :=
  y'.1 = y.1 ∧ y'.2 t = y.2 t

theorem reference_of_concerns {t : ThreadId} {τ : Turn} (hτ : τ.concerns t = true)
    {y y' : Replay × (ThreadId → Option Walk)} (h : SameFor t y y') :
    (reference s y' τ).2 = (reference s y τ).2.filter (fun a => a.1 = t)
      ∧ SameFor t (reference s y τ).1 (reference s y' τ).1 := by
  obtain ⟨p, walks⟩ := y
  obtain ⟨p', walks'⟩ := y'
  obtain ⟨rfl, hw⟩ := h
  cases τ with
  | unwind f =>
    obtain rfl : f.thread = t := of_decide_eq_true hτ
    replace hw : walks' f.thread = walks f.thread := hw
    refine ⟨?_, rfl, ?_⟩ <;> simp [reference, hw]
  | resumed => exact ⟨rfl, rfl, rfl⟩
  | move m => exact ⟨rfl, rfl, hw⟩

theorem reference_of_not_concerns {t : ThreadId} {τ : Turn} (hτ : ¬ τ.concerns t = true)
    (y : Replay × (ThreadId → Option Walk)) :
    (reference s y τ).2.filter (fun a => a.1 = t) = [] ∧ SameFor t (reference s y τ).1 y := by
  cases τ with
  | unwind f =>
    have hf : f.thread ≠ t := fun heq => hτ (decide_eq_true heq)
    exact ⟨by simp [reference, hf], rfl, by simp [reference, hf.symm]⟩
  | resumed => exact absurd rfl hτ
  | move m => exact absurd rfl hτ

/-- The reference answers about a thread by the walk of that thread. -/
theorem play_concerns (t : ThreadId) : ∀ (ts : List Turn)
    {y y' : Replay × (ThreadId → Option Walk)}, SameFor t y y' →
      (play (reference s) y' (ts.filter (Turn.concerns t))).2
          = (play (reference s) y ts).2.filter (fun a => a.1 = t)
        ∧ SameFor t (play (reference s) y ts).1
          (play (reference s) y' (ts.filter (Turn.concerns t))).1
  | [], _, _, h => ⟨rfl, h⟩
  | τ :: ts, y, y', h => by
    by_cases hτ : τ.concerns t = true
    · obtain ⟨ha, hnext⟩ := reference_of_concerns (s := s) hτ h
      obtain ⟨hrest, hlast⟩ := play_concerns t ts hnext
      rw [List.filter_cons_of_pos hτ]
      refine ⟨?_, hlast⟩
      simp only [play, List.filter_append, ha, hrest]
    -- a turn that is left out moves the walk of another thread, and `y'` waits for it
    · obtain ⟨ha, hnext⟩ := reference_of_not_concerns (s := s) hτ y
      obtain ⟨hrest, hlast⟩ := play_concerns t ts
        (⟨h.1.trans hnext.1, h.2.trans hnext.2⟩ : SameFor t (reference s y τ).1 y')
      rw [List.filter_cons_of_neg hτ]
      refine ⟨?_, hlast⟩
      simp only [play, List.filter_append, ha, List.nil_append, hrest]

theorem follow_isSome (h : Host) (s : Settings) (inside : Word → Bool) (f : HostFrame)
    (w : Option Walk) :
    (Walk.follow h s inside f w).1.isSome
      ↔ w.isSome ∨ (Walk.follow h s inside f w).2.isSome := by
  rcases w with _ | w
  · simp only [Walk.follow]
    split
    · split <;> simp
    · simp
  · simp [Walk.follow]

/-- Whatever happened, an unwinder answers and keeps walks as the reference does. The answers about a
thread and its walk stay when all questions about other threads are left out, an answer of none
begins no walk, and once told that the program ran on, an unwinder answers as a new one. -/
theorem answers_by_thread (p : Replay) (s : Settings) (ts : List Turn) :
    let x := play turn (p, new s) ts
    let y := play (reference s) (p, fun _ => none) ts
    let q := x.1.1
    let u := x.1.2
    (x.2 = y.2 ∧ q = y.1.1 ∧ u.walk? = y.1.2)
      ∧ (∀ t, let own := play turn (p, new s) (ts.filter (Turn.concerns t))
        own.2 = x.2.filter (fun a => a.1 = t) ∧ own.1.2.walk? t = u.walk? t)
      ∧ (∀ f, ((u.unwind q.host f).value.1.walk? f.thread).isSome
        ↔ (u.walk? f.thread).isSome ∨ (u.unwind q.host f).value.2.isSome)
      ∧ ∀ later, let told := play turn (q, u.resumed.value) later
        let fresh := play turn (q, new s) later
        told.2 = fresh.2 ∧ told.1.2.walk? = fresh.1.2.walk? := by
  intro x y q u
  have hnew : (new s).walk? = fun _ => none := rfl
  obtain ⟨hans, hu, hlast⟩ := play_reference (serves_new p s) ts
  rw [hnew] at hans hlast
  refine ⟨⟨hans, ?_, ?_⟩, fun t => ?_, fun f => ?_, fun later => ?_⟩
  · exact (congrArg Prod.fst hlast).symm
  · exact (congrArg Prod.snd hlast).symm
  · obtain ⟨hown, -, hownLast⟩ := play_reference (serves_new p s) (ts.filter (Turn.concerns t))
    obtain ⟨ha, -, hw⟩ := play_concerns (s := s) t ts
      (⟨rfl, rfl⟩ : SameFor t (p, fun _ => none) (p, fun _ => none))
    rw [hnew] at hown hownLast
    rw [hownLast, hlast] at hw
    exact ⟨hown.trans (ha.trans (congrArg _ hans.symm)), hw⟩
  · obtain ⟨-, ha, hw⟩ := Serves.unwind hu f
    rw [ha, hw, if_pos rfl]
    exact follow_isSome _ _ _ _ _
  · obtain ⟨hu', hw⟩ := Serves.resumed hu
    exact play_of_walks hu' (serves_new q s) (funext hw) later

end Unwinder

end MixedStack
