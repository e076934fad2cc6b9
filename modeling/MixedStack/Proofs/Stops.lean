import MixedStack.Proofs.Kept

/-!
# Stops in their order

A debugger goes through the stops of a recording in their order, one for each time the program is
let run on, and what the other commands do in between does not matter (`Debugger.stops_in_order`).
At every stop the thread that commands are about is one that is there, unless none is
(`AtStop.execute`), and so is every thread of which frames are kept.
-/

namespace MixedStack

namespace Replay

theorem isSome_thread? {p : Replay} {t : ThreadId} :
    (p.thread? t).isSome ↔ ∃ state ∈ p.threads, state.id = t := by
  simp only [thread?, List.find?_isSome, decide_eq_true_eq]

end Replay

namespace Debugger

/-- The debugger let the program run on `k` times, and a thread of where it is now is the current
one if there is any. -/
structure AtStop (r : Recording) (k : Nat) (d : Debugger) : Prop where
  stops : d.replay.stops = r.stops
  passed : d.replay.passed = min k r.stops.length
  present : ∀ t, d.current = some t → (d.replay.thread? t).isSome
  chosen : d.current = none → d.replay.threads = []

variable {r : Recording} {s : Settings} {k : Nat} {d : Debugger}

theorem AtStop.place?_eq (h : d.AtStop r k) :
    d.replay.place? = if k < r.stops.length then some k else none := by
  simp only [Replay.place?, h.stops, h.passed]
  split_ifs with h1 h2 h2
  · congr 1
    omega
  · omega
  · omega
  · rfl

theorem AtStop.stop?_eq (h : d.AtStop r k) : d.replay.stop? = r.stops[k]? := by
  simp only [Replay.stop?, h.stops, h.passed]
  rcases Nat.lt_or_ge k r.stops.length with hk | hk
  · rw [Nat.min_eq_left (Nat.le_of_lt hk)]
  · rw [Nat.min_eq_right hk, List.getElem?_eq_none (Nat.le_refl _), List.getElem?_eq_none hk]

theorem AtStop.mem_threads (h : d.AtStop r k) {state : ThreadState} :
    state ∈ d.replay.threads ↔ ∃ stop, r.stops[k]? = some stop ∧ state ∈ stop.threads := by
  rw [Replay.threads, h.stop?_eq]
  rcases r.stops[k]? with _ | stop <;> simp

theorem present_firstThread {p : Replay} {t : ThreadId} (ht : firstThread p = some t) :
    (p.thread? t).isSome := by
  obtain ⟨state, hhead, rfl⟩ := Option.map_eq_some_iff.1 ht
  exact Replay.isSome_thread?.2 ⟨state, List.mem_of_mem_head? hhead, rfl⟩

theorem threads_of_firstThread {p : Replay} (hp : firstThread p = none) : p.threads = [] :=
  List.head?_eq_none_iff.1 (Option.map_eq_none_iff.1 hp)

theorem atStop_new (r : Recording) (s : Settings) : (new (.ofRecording r) s).AtStop r 0 where
  stops := rfl
  passed := (Nat.zero_min _).symm
  present _ := present_firstThread
  chosen := threads_of_firstThread

theorem AtStop.resume (h : d.AtStop r k) (hk : k < r.stops.length) :
    d.resume.value.AtStop r (k + 1) := by
  have hpassed : d.replay.resume.value.passed = k + 1 := by
    show (if d.replay.passed < d.replay.stops.length then d.replay.passed + 1
      else d.replay.passed) = k + 1
    rw [h.stops, h.passed, if_pos (by omega)]
    omega
  refine ⟨h.stops, by rw [Nat.min_eq_left hk]; exact hpassed, fun t ht => ?_, fun hnone => ?_⟩
  · replace ht := Option.or_eq_some_iff.1 ht
    rcases ht with hkept | ⟨-, hfirst⟩
    · exact (Option.filter_eq_some_iff.1 hkept).2
    · exact present_firstThread hfirst
  · exact threads_of_firstThread (Option.or_eq_none_iff.1 hnone).2

/-- A command keeps the debugger at its stop, and letting the program run on takes it to the next. -/
theorem AtStop.execute (h : d.AtStop r k) (hd : d.Sound s) (c : Command) :
    (d.execute c).value.1.AtStop r (if c = .resume then k + 1 else k) := by
  obtain ⟨asked, t, rfl, -, hx⟩ | ⟨rfl, hp, hx⟩ | ⟨rfl, hx⟩ | ⟨t, rfl, ht, hx⟩ | ⟨-, hr, hx⟩ :=
    d.execute_cases c
  · obtain ⟨-, -, hreplay, hcurrent, -⟩ := hd.frames t
    rw [hx, if_neg nofun]
    constructor
    · rw [hreplay, h.stops]
    · rw [hreplay, h.passed]
    · rw [hreplay, hcurrent]
      exact h.present
    · rw [hreplay, hcurrent]
      exact h.chosen
  · have hk : k < r.stops.length := by
      rw [h.place?_eq] at hp
      by_contra hge
      simp [hge] at hp
    rw [hx, if_pos rfl]
    exact h.resume hk
  · rw [hx, if_neg nofun]
    exact ⟨h.stops, h.passed, h.present, h.chosen⟩
  · rw [hx, if_neg nofun]
    refine ⟨h.stops, h.passed, fun t' ht' => ?_, nofun⟩
    obtain rfl : t = t' := by simpa using ht'
    exact ht
  · rw [hx]
    split
    case isTrue hc =>
      -- the program has exited, so there is nothing left to pass
      have hp := hr hc
      rw [h.place?_eq] at hp
      have hk : r.stops.length ≤ k := by
        by_contra hlt
        simp [Nat.lt_of_not_le hlt] at hp
      refine ⟨h.stops, ?_, h.present, h.chosen⟩
      rw [h.passed]
      omega
    case isFalse => exact h

theorem atStop_after (r : Recording) (s : Settings) (cs : List Command) :
    ((new (.ofRecording r) s).after cs).AtStop r (cs.count .resume) := by
  induction cs using List.reverseRecOn with
  | nil => exact atStop_new r s
  | append_singleton cs c ih =>
    have hstep := ih.execute (sound_after (.ofRecording r) s cs).1 c
    rw [after_concat, List.count_append, List.count_singleton]
    by_cases hc : c = .resume
    · simpa [hc] using hstep
    · simpa [hc] using hstep

/-- What letting the program run on answers goes by how often it was done before. -/
theorem AtStop.reply_resume (h : d.AtStop r k) :
    (d.execute .resume).value.2 = .say [
      if k + 1 < r.stops.length then
        "Stopped (stop " ++ toString (k + 2) ++ " of " ++ toString r.stops.length ++ ")."
      else if k + 1 = r.stops.length then "Program exited."
      else "The program is not being run."] := by
  simp only [Debugger.execute, perform, goOn, Traced.value_bind, h.place?_eq]
  by_cases hk : k < r.stops.length
  · have hnext := h.resume hk
    simp only [hk, if_true, Traced.value_bind, hnext.place?_eq, hnext.stops]
    by_cases hlast : k + 1 < r.stops.length
    · simp only [hlast, if_true]
      rfl
    · have heq : k + 1 = r.stops.length := by omega
      rw [if_neg hlast, if_neg hlast, if_pos heq]
      rfl
  · have hlast : ¬ k + 1 < r.stops.length := by omega
    have hne : ¬ k + 1 = r.stops.length := by omega
    simp only [hk, hlast, hne, if_false, Traced.value_pure]

theorem line_ne_noThread (v : FrameView) : ¬ "No thread".toList <+: v.line.toList := by
  simp [FrameView.line, String.toList_append]

/-- The frames of the current thread can always be shown. -/
theorem AtStop.reply_backtrace (h : d.AtStop r k) (hd : d.Sound s) :
    ∀ line ∈ (d.execute (.backtrace none)).value.2.lines,
      ¬ "No thread".toList <+: line.toList := by
  simp only [Debugger.execute, perform, Traced.value_bind, Option.none_or]
  rcases ht : d.current with _ | t
  · simp [Reply.say]
  · obtain ⟨hf, -⟩ := hd.frames t
    obtain ⟨state, hstate⟩ := Option.isSome_iff_exists.1 (h.present t ht)
    simp only [showFrames, Traced.value_bind, labelledFrames_value, hf, Backtrace.visited?, hstate,
      Option.map_some, Traced.value_pure, Reply.say, List.mem_map]
    rintro line ⟨f, -, rfl⟩
    exact line_ne_noThread _

theorem Sound.present (hd : d.Sound s) {t : ThreadId} (hk : (d.backtraces.get? t).isSome) :
    (d.replay.thread? t).isSome := by
  obtain ⟨frames, hframes⟩ := Option.isSome_iff_exists.1 hk
  obtain ⟨v, hv, -⟩ := hd.kept t frames hframes
  obtain ⟨state, hstate, -⟩ := Option.map_eq_some_iff.1 hv
  rw [hstate]
  rfl

/-- After any commands, the program is at the stop that has as many before it as it was let run on,
or has exited behind the last, and letting it run on once more answers so. There is a current thread
if there is any thread at that stop, and it is one of them, so its frames can be shown. All threads
of which frames are kept are among them too. -/
theorem stops_in_order (r : Recording) (s : Settings) (cs : List Command) :
    let d := (new (.ofRecording r) s).after cs
    let n := r.stops.length
    let k := cs.count .resume
    let Here := fun t => ∃ stop, r.stops[k]? = some stop ∧ ∃ state ∈ stop.threads, state.id = t
    d.replay.place? = (if k < n then some k else none)
      ∧ d.replay.stop? = r.stops[k]?
      ∧ (d.execute .resume).value.2 = .say [
        if k + 1 < n then "Stopped (stop " ++ toString (k + 2) ++ " of " ++ toString n ++ ")."
        else if k + 1 = n then "Program exited."
        else "The program is not being run."]
      ∧ (d.current = none ↔ ∀ stop, r.stops[k]? = some stop → stop.threads = [])
      ∧ (∀ t, d.current = some t → Here t)
      ∧ (∀ line ∈ (d.execute (.backtrace none)).value.2.lines,
        ¬ "No thread".toList <+: line.toList)
      ∧ ∀ t, (d.backtraces.get? t).isSome → Here t := by
  intro d n k Here
  have h : d.AtStop r k := atStop_after r s cs
  have hd : d.Sound s := (sound_after (.ofRecording r) s cs).1
  have hhere : ∀ t, (d.replay.thread? t).isSome → Here t := by
    intro t ht
    obtain ⟨state, hmem, hid⟩ := Replay.isSome_thread?.1 ht
    obtain ⟨stop, hstop, hmem⟩ := h.mem_threads.1 hmem
    exact ⟨stop, hstop, state, hmem, hid⟩
  refine ⟨h.place?_eq, h.stop?_eq, h.reply_resume, ⟨fun hnone stop hstop => ?_, fun hall => ?_⟩,
    fun t ht => hhere t (h.present t ht), h.reply_backtrace hd, fun t ht => hhere t (hd.present ht)⟩
  · have hthreads := h.chosen hnone
    rwa [Replay.threads, h.stop?_eq, hstop] at hthreads
  · rcases ht : d.current with _ | t
    · rfl
    · obtain ⟨stop, hstop, state, hmem, -⟩ := hhere t (h.present t ht)
      rw [hall stop hstop] at hmem
      cases hmem

end Debugger

end MixedStack
