import MixedStack.Proofs.Coherence
import MixedStack.Unwinder

/-!
# One walk for each thread

An unwinder answers about a thread from the walk of that thread alone: `Walk.follow` says what a
frame makes of it, with the dispatch loop as a plain test of instructions. For an unwinder that
serves a replay (`Unwinder.Serves`) that test is the block the symbols name now (`Serves.unwind`).
Every unwinder does that was asked about frames of a replay since it was new (`Reaches.serves`),
however often the code was laid out anew and whoever was asked about.
-/

namespace MixedStack

namespace Walk

/-- What a frame makes of the walk of its thread, and the answer. Without a walk, one begins at the
first frame inside the dispatch loop. -/
def follow (h : Host) (s : Settings) (inside : Word → Bool) (f : HostFrame) :
    Option Walk → Option Walk × Option Unwound
  | some w => (some (w.step h f).value.1, (w.step h f).value.2)
  | none =>
    if f.registers.rip.any inside then
      match (begin h f s).outcome.value with
      | .ok (w, unwound) => (some w, some unwound)
      | .error _ => (none, none)
    else (none, none)

end Walk

namespace Unwinder

theorem walk?_insert (u : Unwinder) (w : Walk) (thread t : ThreadId) :
    walk? { u with walks := u.walks.insert thread w } t
      = if t = thread then some w else u.walk? t :=
  Table.get?_insert u.walks thread t w

/-- The answer to a question, by the walk of its thread. -/
theorem unwind_value (h : Host) (f : HostFrame) (u : Unwinder) :
    (u.unwind h f).value =
      match u.walk? f.thread with
      | some w => ({ u with walks := u.walks.insert f.thread (w.step h f).value.1 },
          (w.step h f).value.2)
      | none =>
        match f.registers.rip with
        | none => (u, none)
        | some pc =>
          let asked := { u with loop := (u.loop.contains h pc).value.1 }
          if (u.loop.contains h pc).value.2 then
            match (Walk.begin h f u.settings).outcome.value with
            | .ok (w, unwound) =>
              ({ asked with walks := u.walks.insert f.thread w }, some unwound)
            | .error _ => (asked, none)
          else (asked, none) := by
  unfold unwind walk?
  rcases u.walks.get? f.thread with _ | w
  · rcases f.registers.rip with _ | pc
    · rfl
    · simp only [inLoop, enter, Traced.value_bind, Traced.value_pure]
      split
      · simp only [Traced.value_bind]
        rcases (Walk.begin h f u.settings).outcome.value with fault | ⟨w, unwound⟩ <;> rfl
      · rfl
  · rfl

/-- An unwinder with these settings may get here along with a replay: it answers questions and
forgets its walks, and the program runs on and is laid out anew, in any order. -/
inductive Reaches (s : Settings) : Replay → Unwinder → Prop where
  | new (p : Replay) : Reaches s p (new s)
  | unwind {p : Replay} {u : Unwinder} (f : HostFrame) :
    Reaches s p u → Reaches s p (u.unwind p.host f).value.1
  | resumed {p : Replay} {u : Unwinder} : Reaches s p u → Reaches s p u.resumed.value
  | resume {p : Replay} {u : Unwinder} : Reaches s p u → Reaches s p.resume.value u
  | reloadWith {p : Replay} {u : Unwinder} (symbols : List Symbol) :
    Reaches s p u → Reaches s (p.reloadWith symbols).value u

/-- An unwinder with these settings, and with what it keeps of the dispatch loop coherent. -/
structure Serves (p : Replay) (s : Settings) (u : Unwinder) : Prop where
  settings : u.settings = s
  symbol : u.loop.symbol = s.loopSymbol
  coherent : u.loop.Coherent p

theorem serves_new (p : Replay) (s : Settings) : (new s).Serves p s :=
  ⟨rfl, rfl, DispatchLoop.coherent_named p s.loopSymbol⟩

variable {p : Replay} {s : Settings} {u : Unwinder}

/-- A question is answered from the walk of its thread, and changes no other walk. -/
theorem Serves.unwind (hu : u.Serves p s) (f : HostFrame) :
    (u.unwind p.host f).value.1.Serves p s
      ∧ (u.unwind p.host f).value.2
        = (Walk.follow p.host s (p.inBlockOf s.loopSymbol) f (u.walk? f.thread)).2
      ∧ ∀ t, (u.unwind p.host f).value.1.walk? t = if t = f.thread then
          (Walk.follow p.host s (p.inBlockOf s.loopSymbol) f (u.walk? f.thread)).1
        else u.walk? t := by
  obtain ⟨rfl, hsym, hco⟩ := hu
  have hself : ∀ t, u.walk? t = if t = f.thread then u.walk? f.thread else u.walk? t := by
    intro t
    split <;> simp_all
  rw [unwind_value]
  rcases hw : u.walk? f.thread with _ | w
  · rcases hr : f.registers.rip with _ | pc
    · refine ⟨⟨rfl, hsym, hco⟩, ?_, fun t => ?_⟩
      · simp only [Walk.follow, hr, Option.any_none, Bool.false_eq_true, if_false]
      · simpa only [Walk.follow, hr, Option.any_none, Bool.false_eq_true, if_false, hw]
          using hself t
    · obtain ⟨hv, hs, hc⟩ := hco.contains pc
      have hasked : ∀ walks, Serves p u.settings
          ⟨u.settings, (u.loop.contains p.host pc).value.1, walks⟩ :=
        fun walks => ⟨rfl, hs.trans hsym, hc⟩
      simp only [hv, hsym]
      rw [hw] at hself
      by_cases hin : p.inBlockOf u.settings.loopSymbol pc
      · simp only [Walk.follow, hr, Option.any_some, hin, if_true]
        rcases (Walk.begin p.host f u.settings).outcome.value with fault | ⟨w, unwound⟩
        · exact ⟨hasked _, rfl, hself⟩
        · exact ⟨hasked _, rfl, walk?_insert u w f.thread⟩
      · simp only [Walk.follow, hr, Option.any_some, hin, Bool.false_eq_true, if_false]
        exact ⟨hasked _, trivial, hself⟩
  · exact ⟨⟨rfl, hsym, hco⟩, rfl, walk?_insert u _ f.thread⟩

theorem Serves.resume (hu : u.Serves p s) : u.Serves p.resume.value s :=
  ⟨hu.settings, hu.symbol, hu.coherent.resume⟩

theorem Serves.reloadWith (hu : u.Serves p s) (symbols : List Symbol) :
    u.Serves (p.reloadWith symbols).value s :=
  ⟨hu.settings, hu.symbol, hu.coherent.reloadWith symbols⟩

theorem Serves.resumed (hu : u.Serves p s) :
    u.resumed.value.Serves p s ∧ ∀ t, u.resumed.value.walk? t = none := by
  unfold Unwinder.resumed
  split
  case isTrue he =>
    refine ⟨hu, fun t => ?_⟩
    have hnil : u.walks.entries = [] := List.isEmpty_iff.1 he
    simp only [Traced.value_pure, walk?, Table.get?, hnil, List.lookup_nil]
  case isFalse => exact ⟨⟨hu.settings, hu.symbol, hu.coherent⟩, fun t => rfl⟩

/-- Whatever happened to a replay and its unwinder, the unwinder serves the replay. -/
theorem Reaches.serves (h : Reaches s p u) : u.Serves p s := by
  induction h with
  | new p => exact serves_new p s
  | unwind f _ ih => exact (ih.unwind f).1
  | resumed _ ih => exact ih.resumed.1
  | resume _ ih => exact ih.resume
  | reloadWith symbols _ ih => exact ih.reloadWith symbols

end Unwinder

end MixedStack
