import MixedStack.Proofs.Stops
import MixedStack.Shell.Run

/-!
# What leaves the debugger as it is

A line that is no command, asks for what is not there, or only shows what is there leaves the whole
debugger as it is (`Shell.Harmless.answer`). That holds for the frames of a thread that is not there
only because no frames of such a thread are kept. Frames that can be shown change what is kept of
their thread and of the dispatch loop, and nothing else (`Debugger.Sound.frames_locally`).
-/

namespace MixedStack

/-- The line is no command, asks for what is not there, or only shows what is there. -/
inductive Shell.Harmless (d : Debugger) (line : String) : Prop where
  | idle (h : isIdle line.toList)
  | refused {refusal : Refusal} (h : parse line = .error refusal)
  | noFrames {t : ThreadId} (h : parse line = .ok (some (.backtrace (some t))))
    (ht : ∀ state ∈ d.replay.threads, state.id ≠ t)
  | noThread {t : ThreadId} (h : parse line = .ok (some (.select t)))
    (ht : ∀ state ∈ d.replay.threads, state.id ≠ t)
  | noStack (h : parse line = .ok (some (.backtrace none))) (hd : d.current = none)
  | exited (h : parse line = .ok (some .resume)) (hp : d.replay.place? = none)
  | help (h : parse line = .ok (some .help))
  | threads (h : parse line = .ok (some .threads))
  | chain (h : parse line = .ok (some .chain))

namespace Debugger

variable {s : Settings} {d : Debugger} {t : ThreadId}

theorem thread?_eq_none (ht : ∀ state ∈ d.replay.threads, state.id ≠ t) :
    d.replay.thread? t = none := by
  refine List.find?_eq_none.2 fun state hmem => ?_
  simpa using ht state hmem

/-- Of a thread that is not there nothing is kept, and nothing is made. -/
theorem Sound.frames_of_absent (hd : d.Sound s) (ht : d.replay.thread? t = none) :
    (d.frames t).value.1 = d := by
  have hk : d.backtraces.get? t = none := by
    rcases hk : d.backtraces.get? t with _ | frames
    · rfl
    · have hpresent := hd.present (by rw [hk]; rfl : (d.backtraces.get? t).isSome)
      rw [ht] at hpresent
      cases hpresent
  rw [frames_of_unkept hk, Backtrace.frames, ht]
  rfl

/-- Frames that are made or kept change nothing but the block of the dispatch loop, and what is kept
of their thread. -/
theorem Sound.frames_locally (hd : d.Sound s) (t : ThreadId) :
    ∃ block walks backtraces,
      (d.frames t).value.1 = { d with
        unwinder := { d.unwinder with loop := { d.unwinder.loop with block }, walks }
        backtraces }
      ∧ ∀ k, k ≠ t → walks.get? k = d.unwinder.walks.get? k
        ∧ backtraces.get? k = d.backtraces.get? k := by
  obtain ⟨-, hd', hreplay, hcurrent, hkept⟩ := hd.frames t
  have hother : ∀ k, k ≠ t → (d.frames t).value.1.unwinder.walk? k = d.unwinder.walk? k := by
    intro k hk
    rw [hd'.walk?_eq, hd.walk?_eq, hkept, if_neg hk, hreplay]
  have hsettings := hd'.serves.settings.trans hd.serves.settings.symm
  have hsymbol := hd'.serves.symbol.trans hd.serves.symbol.symm
  have hlabelling := hd'.labelling.trans hd.labelling.symm
  replace hkept : ∀ k, k ≠ t →
      (d.frames t).value.1.backtraces.get? k = d.backtraces.get? k :=
    fun k hk => (hkept k).trans (if_neg hk)
  generalize (d.frames t).value.1 = d' at *
  obtain ⟨replay, ⟨settings, ⟨symbol, block⟩, walks⟩, labelling, current, backtraces⟩ := d'
  simp only at hreplay hcurrent hsettings hsymbol hlabelling
  subst hreplay hcurrent hsettings hsymbol hlabelling
  exact ⟨block, walks, backtraces, rfl, fun k hk => ⟨hother k hk, hkept k hk⟩⟩

end Debugger

namespace Shell

variable {s : Settings} {d : Debugger} {line : String}

theorem answer_of_command {c : Command} (h : parse line = .ok (some c)) :
    (answer line d).value.1 = (d.perform c).value.1 := by
  rw [answer, h]
  rfl

theorem parse_of_isIdle (h : isIdle line.toList) : parse line = .ok none :=
  if_pos h

theorem Harmless.answer (h : Harmless d line) (hd : d.Sound s) :
    (answer line d).value.1 = d := by
  cases h with
  | idle h =>
    rw [Shell.answer, parse_of_isIdle h]
    rfl
  | refused h =>
    rw [Shell.answer, h]
    rfl
  | noFrames h ht =>
    rw [answer_of_command h, Debugger.perform, Option.some_or, Debugger.showFrames_value]
    exact hd.frames_of_absent (Debugger.thread?_eq_none ht)
  | noThread h ht =>
    rw [answer_of_command h, Debugger.perform, Debugger.select, Debugger.thread?_eq_none ht]
    rfl
  | noStack h hcurrent =>
    rw [answer_of_command h, Debugger.perform, Option.none_or, hcurrent]
    rfl
  | exited h hp =>
    rw [answer_of_command h, Debugger.perform, Debugger.goOn, hp]
    rfl
  | help h =>
    rw [answer_of_command h]
    rfl
  | threads h =>
    rw [answer_of_command h]
    rfl
  | chain h =>
    rw [answer_of_command h]
    rfl

/-- After any commands, a harmless line leaves the debugger as it is. A line that asks for the frames
of a thread leaves it so but for the block of the dispatch loop, and the frames and the walk that are
kept of this thread. -/
theorem harmless_answer (r : Recording) (s : Settings) (cs : List Command) (line : String) :
    let d := (Debugger.new (.ofRecording r) s).after cs
    (Harmless d line → (answer line d).value.1 = d)
      ∧ ∀ asked t, parse line = .ok (some (.backtrace asked)) → asked.or d.current = some t →
        ∃ block walks backtraces,
          (answer line d).value.1 = { d with
            unwinder := { d.unwinder with loop := { d.unwinder.loop with block }, walks }
            backtraces }
          ∧ ∀ k, k ≠ t → walks.get? k = d.unwinder.walks.get? k
            ∧ backtraces.get? k = d.backtraces.get? k := by
  intro d
  have hd : d.Sound s := (Debugger.sound_after (.ofRecording r) s cs).1
  refine ⟨fun h => h.answer hd, fun asked t hparse ht => ?_⟩
  rw [answer_of_command hparse, Debugger.perform, ht, Debugger.showFrames_value]
  exact hd.frames_locally t

end Shell

end MixedStack
