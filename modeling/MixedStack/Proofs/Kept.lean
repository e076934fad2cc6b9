import Mathlib.Data.List.Induction
import MixedStack.Debugger
import MixedStack.Proofs.Turns
import MixedStack.Proofs.Visits

/-!
# Kept backtraces

A debugger keeps the backtraces it has made, the walks they left behind, and the block of the
dispatch loop, and it drops them at different times. `Debugger.Sound` ties all three to the halt the
program is at: what is kept of a thread is what a new unwinder would make of it now, and a thread of
which nothing is kept has no walk. Every command keeps that (`Sound.execute`), so no sequence of
commands makes a debugger show anything else (`Debugger.frames_fresh`).
-/

namespace MixedStack

open Backtrace

namespace Debugger

/-- The debugger after commands. -/
def after (d : Debugger) (cs : List Command) : Debugger :=
  cs.foldl (fun d c => (d.execute c).value.1) d

/-- The command shows the frames of a thread. -/
def Shows (d : Debugger) (c : Command) (t : ThreadId) : Prop :=
  ∃ asked, c = .backtrace asked ∧ asked.or d.current = some t ∧ (d.frames t).value.2.isSome

/-- One of the commands showed the frames of a thread, and the program did not run on behind it. -/
def ShownSinceHalt (d : Debugger) (cs : List Command) (t : ThreadId) : Prop :=
  ∃ before c later, cs = before ++ c :: later ∧ .resume ∉ later ∧ (d.after before).Shows c t

/-- What is kept is what would be made now. -/
structure Sound (s : Settings) (d : Debugger) : Prop where
  serves : d.unwinder.Serves d.replay s
  labelling : d.labelling = ⟨s.frameLabel, true⟩
  kept : ∀ t frames, d.backtraces.get? t = some frames →
    ∃ v, visited? d.replay s t = some v ∧ frames = numbered d.replay 0 v.2
      ∧ d.unwinder.walk? t = v.1
  free : ∀ t, d.backtraces.get? t = none → d.unwinder.walk? t = none

variable {s : Settings} {d : Debugger}

theorem sound_new (p : Replay) (s : Settings) : (new p s).Sound s where
  serves := Unwinder.serves_new p s
  labelling := rfl
  kept := by
    intro t frames h
    cases h
  free _ _ := rfl

theorem frames_of_kept {t : ThreadId} {frames : List Frame}
    (hk : d.backtraces.get? t = some frames) : (d.frames t).value = (d, some frames) := by
  unfold Debugger.frames
  rw [hk]
  rfl

theorem frames_of_unkept {t : ThreadId} (hk : d.backtraces.get? t = none) :
    (d.frames t).value =
      match (Backtrace.frames d.replay t d.unwinder).value with
      | (unwinder, none) => ({ d with unwinder }, none)
      | (unwinder, some frames) =>
        ({ d with unwinder, backtraces := d.backtraces.insert t frames }, some frames) := by
  unfold Debugger.frames
  rw [hk]
  simp only [Traced.value_bind]
  rcases (Backtrace.frames d.replay t d.unwinder).value with ⟨unwinder, _ | frames⟩ <;> rfl

/-- Whatever is made of a thread of which nothing was kept may be kept. -/
theorem Sound.make (hd : d.Sound s) {t : ThreadId} (hk : d.backtraces.get? t = none)
    {unwinder : Unwinder} {made : Option (List Frame)}
    (hm : (Backtrace.frames d.replay t d.unwinder).value = (unwinder, made))
    {backtraces : Table (List Frame)}
    (hb : ∀ k, backtraces.get? k = if k = t then made else d.backtraces.get? k) :
    made = (visited? d.replay s t).map (fun v => numbered d.replay 0 v.2)
      ∧ Sound s { d with unwinder, backtraces } := by
  obtain ⟨hs, hf, hw⟩ := frames_visited t hd.serves (hd.free t hk)
  rw [hm] at hs hf hw
  simp only at hs hf hw
  refine ⟨hf, hs, hd.labelling, fun k frames hkept => ?_, fun k hnone => ?_⟩
  · replace hkept : backtraces.get? k = some frames := hkept
    rw [hb, hf] at hkept
    split at hkept
    case isTrue heq =>
      obtain ⟨v, hv, rfl⟩ := Option.map_eq_some_iff.1 hkept
      refine ⟨v, heq ▸ hv, rfl, ?_⟩
      rw [hw, if_pos heq, hv, Option.bind_some]
    case isFalse hne =>
      rw [hw, if_neg hne]
      exact hd.kept k frames hkept
  · replace hnone : backtraces.get? k = none := hnone
    rw [hb, hf] at hnone
    split at hnone
    case isTrue heq =>
      rw [hw, if_pos heq, Option.map_eq_none_iff.1 hnone, Option.bind_none]
    case isFalse hne =>
      rw [hw, if_neg hne]
      exact hd.free k hnone

/-- The frames of a thread are what a new unwinder would make now, and nothing else of what is kept
changes. -/
theorem Sound.frames (hd : d.Sound s) (t : ThreadId) :
    (d.frames t).value.2 = (visited? d.replay s t).map (fun v => numbered d.replay 0 v.2)
      ∧ (d.frames t).value.1.Sound s
      ∧ (d.frames t).value.1.replay = d.replay
      ∧ (d.frames t).value.1.current = d.current
      ∧ ∀ k, (d.frames t).value.1.backtraces.get? k
        = if k = t then (d.frames t).value.2 else d.backtraces.get? k := by
  rcases hk : d.backtraces.get? t with _ | frames
  · rw [frames_of_unkept hk]
    rcases hm : (Backtrace.frames d.replay t d.unwinder).value with ⟨unwinder, _ | frames⟩
    · have hb : ∀ k, d.backtraces.get? k = if k = t then none else d.backtraces.get? k := by
        intro k
        split <;> simp_all
      obtain ⟨hf, hs⟩ := hd.make hk hm hb
      exact ⟨hf, hs, rfl, rfl, hb⟩
    · have hb : ∀ k, (d.backtraces.insert t frames).get? k
          = if k = t then some frames else d.backtraces.get? k :=
        fun k => Table.get?_insert d.backtraces t k frames
      obtain ⟨hf, hs⟩ := hd.make hk hm hb
      exact ⟨hf, hs, rfl, rfl, hb⟩
  · obtain ⟨v, hv, rfl, hw⟩ := hd.kept t frames hk
    rw [frames_of_kept hk, hv]
    refine ⟨rfl, hd, rfl, rfl, fun k => ?_⟩
    split
    case isTrue heq => rw [heq, hk]
    case isFalse => rfl

theorem Sound.walk?_eq (hd : d.Sound s) (t : ThreadId) :
    d.unwinder.walk? t =
      if (d.backtraces.get? t).isSome then (visited? d.replay s t).bind Prod.fst else none := by
  rcases hk : d.backtraces.get? t with _ | frames
  · exact hd.free t hk
  · obtain ⟨v, hv, -, hw⟩ := hd.kept t frames hk
    rw [hw, hv]
    rfl

theorem Sound.get?_of_exited (hd : d.Sound s) (hp : d.replay.place? = none) (t : ThreadId) :
    d.backtraces.get? t = none := by
  have hstop : d.replay.stop? = none := by
    unfold Replay.place? at hp
    split at hp
    case isTrue => cases hp
    case isFalse hge => exact List.getElem?_eq_none (Nat.not_lt.1 hge)
  have hnot : visited? d.replay s t = none := by
    simp only [visited?, Replay.thread?, Replay.threads, hstop, List.find?_nil, Option.map_none]
  rcases hk : d.backtraces.get? t with _ | frames
  · rfl
  · obtain ⟨v, hv, -, -⟩ := hd.kept t frames hk
    rw [hnot] at hv
    cases hv

/-- What is kept stays sound behind laying out the code anew, though the block of the dispatch loop
goes out of date. -/
theorem Sound.reload (hd : d.Sound s) : Sound s { d with replay := d.replay.reload.value } where
  serves := hd.serves.reloadWith d.replay.symbols
  labelling := hd.labelling
  kept := by
    intro t frames hk
    obtain ⟨v, hv, hf, hw⟩ := hd.kept t frames hk
    exact ⟨v, (visited?_reload d.replay s t).trans hv, hf.trans (numbered_reload _ _ _).symm, hw⟩
  free := hd.free

theorem Sound.resume (hd : d.Sound s) :
    d.resume.value.Sound s ∧ ∀ t, d.resume.value.backtraces.get? t = none := by
  obtain ⟨hs, hw⟩ := hd.serves.resumed
  refine ⟨⟨hs.resume, hd.labelling, ?_, fun t _ => hw t⟩, fun _ => rfl⟩
  intro t frames hk
  cases hk

theorem Sound.withCurrent (hd : d.Sound s) (current : Option ThreadId) :
    Sound s { d with current } :=
  ⟨hd.serves, hd.labelling, hd.kept, hd.free⟩

theorem showFrames_value (d : Debugger) (t : ThreadId) :
    (d.showFrames t).value.1 = (d.frames t).value.1 := by
  simp only [showFrames, labelledFrames, Traced.value_bind, Traced.value_pure]
  rcases (d.frames t).value with ⟨d', _ | frames⟩ <;> rfl

/-- What a command makes of the debugger: it shows a thread, lets the program run on, lays out the
code anew, makes a thread the current one, or changes nothing. -/
theorem execute_cases (d : Debugger) (c : Command) :
    (∃ asked t, c = .backtrace asked ∧ asked.or d.current = some t
        ∧ (d.execute c).value.1 = (d.frames t).value.1)
      ∨ (c = .resume ∧ d.replay.place?.isSome ∧ (d.execute c).value.1 = d.resume.value)
      ∨ (c = .reload ∧ (d.execute c).value.1 = { d with replay := d.replay.reload.value })
      ∨ (∃ t, c = .select t ∧ (d.replay.thread? t).isSome
        ∧ (d.execute c).value.1 = { d with current := some t })
      ∨ ((∀ asked, c = .backtrace asked → asked.or d.current = none)
        ∧ (c = .resume → d.replay.place? = none) ∧ (d.execute c).value.1 = d) := by
  cases c with
  | backtrace asked =>
    rcases ht : asked.or d.current with _ | t
    · refine .inr (.inr (.inr (.inr ⟨fun asked' h => ?_, nofun, ?_⟩)))
      · obtain rfl : asked = asked' := by simpa using h
        exact ht
      · simp only [execute, perform, Traced.value_bind, ht, Traced.value_pure]
    · refine .inl ⟨asked, t, rfl, ht, ?_⟩
      simp only [execute, perform, Traced.value_bind, ht, showFrames_value]
  | resume =>
    rcases hp : d.replay.place? with _ | place
    · refine .inr (.inr (.inr (.inr ⟨nofun, fun _ => rfl, ?_⟩)))
      simp only [execute, perform, goOn, Traced.value_bind, hp, Traced.value_pure]
    · refine .inr (.inl ⟨rfl, rfl, ?_⟩)
      simp only [execute, perform, goOn, Traced.value_bind, hp]
      split <;> rfl
  | reload => exact .inr (.inr (.inl ⟨rfl, rfl⟩))
  | select t =>
    rcases ht : d.replay.thread? t with _ | state
    · refine .inr (.inr (.inr (.inr ⟨nofun, nofun, ?_⟩)))
      simp only [execute, perform, select, ht, Traced.value_bind, Traced.value_pure]
    · refine .inr (.inr (.inr (.inl ⟨t, rfl, by rw [ht]; rfl, ?_⟩)))
      simp only [execute, perform, select, ht, Traced.value_bind, Traced.value_pure]
  | threads => exact .inr (.inr (.inr (.inr ⟨nofun, nofun, rfl⟩)))
  | chain => exact .inr (.inr (.inr (.inr ⟨nofun, nofun, rfl⟩)))
  | help => exact .inr (.inr (.inr (.inr ⟨nofun, nofun, rfl⟩)))
  | quit => exact .inr (.inr (.inr (.inr ⟨nofun, nofun, rfl⟩)))

/-- A command keeps the debugger sound. It leaves kept what it shows and, unless the program runs
on, what was kept before. -/
theorem Sound.execute (hd : d.Sound s) (c : Command) :
    (d.execute c).value.1.Sound s
      ∧ ∀ k, ((d.execute c).value.1.backtraces.get? k).isSome
        ↔ d.Shows c k ∨ c ≠ .resume ∧ (d.backtraces.get? k).isSome := by
  obtain ⟨asked, t, rfl, ht, hx⟩ | ⟨rfl, -, hx⟩ | ⟨rfl, hx⟩ | ⟨t, rfl, -, hx⟩ | ⟨hb, hr, hx⟩ :=
    d.execute_cases c
  · obtain ⟨-, hs, -, -, hkept⟩ := hd.frames t
    rw [hx]
    refine ⟨hs, fun k => ?_⟩
    have hshows : d.Shows (.backtrace asked) k ↔ t = k ∧ (d.frames k).value.2.isSome := by
      constructor
      · rintro ⟨asked', hc, hk, hsome⟩
        obtain rfl : asked = asked' := by simpa using hc
        exact ⟨Option.some.inj (ht.symm.trans hk), hsome⟩
      · rintro ⟨rfl, hsome⟩
        exact ⟨asked, rfl, ht, hsome⟩
    rw [hkept, hshows]
    by_cases hk : k = t
    · subst hk
      rcases hkeep : d.backtraces.get? k with _ | frames
      · simp
      · simp [frames_of_kept hkeep]
    · simp [hk, Ne.symm hk]
  · obtain ⟨hs, hnone⟩ := hd.resume
    rw [hx]
    refine ⟨hs, fun k => ?_⟩
    simp [hnone, Shows]
  · rw [hx]
    refine ⟨hd.reload, fun k => ?_⟩
    simp [Shows]
  · rw [hx]
    refine ⟨hd.withCurrent (some t), fun k => ?_⟩
    simp [Shows]
  · rw [hx]
    refine ⟨hd, fun k => ?_⟩
    have hno : ¬ d.Shows c k := by
      rintro ⟨asked, hc, hk, -⟩
      rw [hb asked hc] at hk
      cases hk
    by_cases hc : c = .resume
    · have hnone := hd.get?_of_exited (hr hc) k
      simp [hno, hnone]
    · simp [hno, hc]

theorem after_concat (d : Debugger) (cs : List Command) (c : Command) :
    d.after (cs ++ [c]) = ((d.after cs).execute c).value.1 := by
  simp only [after, List.foldl_append, List.foldl_cons, List.foldl_nil]

theorem shownSinceHalt_iff (d : Debugger) (cs : List Command) (t : ThreadId) :
    d.ShownSinceHalt cs t ↔ Since (fun before c => (d.after before).Shows c t) (· = .resume) cs := by
  have hlater : ∀ later : List Command, .resume ∉ later ↔ ∀ c ∈ later, ¬ c = .resume :=
    fun later => ⟨fun h c hc heq => h (heq ▸ hc), fun h hc => h _ hc rfl⟩
  simp only [ShownSinceHalt, Since, hlater]

theorem shownSinceHalt_concat (d : Debugger) (cs : List Command) (c : Command) (t : ThreadId) :
    d.ShownSinceHalt (cs ++ [c]) t
      ↔ (d.after cs).Shows c t ∨ c ≠ .resume ∧ d.ShownSinceHalt cs t := by
  rw [shownSinceHalt_iff, shownSinceHalt_iff, since_concat]

/-- Whatever the commands were, the debugger is sound, and what is kept was shown since the program
halted. -/
theorem sound_after (p : Replay) (s : Settings) (cs : List Command) :
    ((new p s).after cs).Sound s
      ∧ ∀ t, (((new p s).after cs).backtraces.get? t).isSome ↔ (new p s).ShownSinceHalt cs t := by
  induction cs using List.reverseRecOn with
  | nil =>
    refine ⟨sound_new p s, fun t => ⟨nofun, ?_⟩⟩
    rintro ⟨before, c, later, heq, -⟩
    simp at heq
  | append_singleton cs c ih =>
    obtain ⟨hs, hk⟩ := ih
    obtain ⟨hs', hk'⟩ := hs.execute c
    rw [after_concat]
    refine ⟨hs', fun t => ?_⟩
    rw [hk', shownSinceHalt_concat, hk]

theorem labelledFrames_value (d : Debugger) (t : ThreadId) :
    (d.labelledFrames t).value.2 =
      (d.frames t).value.2.map
        ((d.frames t).value.1.labelling.applyAll ((d.frames t).value.1.unwinder.frames? t)) := by
  simp only [labelledFrames, Traced.value_bind, Traced.value_pure]

/-- After any commands, the frames of a thread, their labels, and what is kept of them are those of
a new unwinder at the current halt. Frames are kept of the threads shown since the program halted,
and only those have a walk. -/
theorem frames_fresh (r : Recording) (s : Settings) (cs : List Command) (t : ThreadId) :
    let d := (new (.ofRecording r) s).after cs
    let fresh := (Backtrace.frames d.replay t (.new s)).value
    (d.frames t).value.2 = fresh.2
      ∧ (d.labelledFrames t).value.2
        = fresh.2.map (Labelling.applyAll ⟨s.frameLabel, true⟩ (fresh.1.frames? t))
      ∧ ((d.backtraces.get? t).isSome ↔ (new (.ofRecording r) s).ShownSinceHalt cs t)
      ∧ d.unwinder.walk? t
        = if (d.backtraces.get? t).isSome then fresh.1.walk? t else none := by
  intro d fresh
  obtain ⟨hd, hshown⟩ := sound_after (.ofRecording r) s cs
  obtain ⟨hf, hd', hp, -, hk⟩ := hd.frames t
  obtain ⟨-, hfresh, hw⟩ := frames_visited t (Unwinder.serves_new d.replay s) rfl
  have hframes : (d.frames t).value.2 = fresh.2 := hf.trans hfresh.symm
  have hwalk : fresh.1.walk? t = (visited? d.replay s t).bind Prod.fst :=
    (hw t).trans (if_pos rfl)
  refine ⟨hframes, ?_, hshown t, ?_⟩
  · rw [labelledFrames_value, hframes, hd'.labelling]
    rcases hsome : fresh.2 with _ | frames
    · rfl
    · -- Labels go by the walk that is left now, and that is the one a new unwinder ends with.
      have hleft : (d.frames t).value.1.unwinder.walk? t = fresh.1.walk? t := by
        rw [hd'.walk?_eq t, hk t, if_pos rfl, hframes, hsome, hp, hwalk]
        rfl
      simp only [Unwinder.frames?, hleft]
  · rw [hd.walk?_eq t, hwalk]

end Debugger

end MixedStack
