import MixedStack.Backtrace
import MixedStack.Proofs.Threads

/-!
# What a backtrace visits

The frames of a backtrace are registers that it visits, each with the identity of the frame.
`Backtrace.visits` says which, from the walk of the thread alone, and a backtrace numbers them
(`Backtrace.frames_visited`). So a backtrace depends on nothing that was asked about other threads,
nor on the layout of the code that the dispatch loop was found in.
-/

namespace MixedStack

/-- Which frame a native frame is. -/
def Registers.nativeId (r : Registers) : FrameId := ⟨r.rsp, r.rip, none⟩

namespace Backtrace

/-- The frames that a list of registers and identities makes, from a level on. -/
def numbered (p : Replay) (level : Nat) (vs : List (Registers × FrameId)) : List Frame :=
  (vs.zipIdx level).map fun ((r, id), l) => ⟨l, r.rip, r.rsp, r.rbp, id, p.functionAt? r.rip⟩

/-- Which frame the registers are of, and those of the caller, behind what becomes of the walk of
the thread. -/
def visit (h : Host) (s : Settings) (inside : Word → Bool) (thread : ThreadId) (r : Registers)
    (w : Option Walk) : Option Walk × FrameId × Option Registers :=
  match Walk.follow h s inside ⟨thread, r.known⟩ w with
  | (w, some unwound) => (w, unwound.id, some unwound.caller)
  | (w, none) => (w, r.nativeId, (nativeCaller h r).value)

/-- At most `fuel` registers from these on, each with the identity of the frame, behind what becomes
of the walk of the thread. -/
def visits (h : Host) (s : Settings) (inside : Word → Bool) (thread : ThreadId) :
    (fuel : Nat) → Registers → Option Walk → Option Walk × List (Registers × FrameId)
  | 0, _, w => (w, [])
  | fuel + 1, r, w =>
    if r.rip = 0 then (w, [])
    else
      match visit h s inside thread r w with
      | (w, id, none) => (w, [(r, id)])
      | (w, id, some caller) =>
        let rest := visits h s inside thread fuel caller w
        (rest.1, (r, id) :: rest.2)

/-- What a backtrace of a thread visits, if the program has it and it has no walk yet. -/
def visited? (p : Replay) (s : Settings) (thread : ThreadId) :
    Option (Option Walk × List (Registers × FrameId)) :=
  (p.thread? thread).map fun state =>
    visits p.host s (p.inBlockOf s.loopSymbol) thread limit state.registers none

theorem numbered_cons (p : Replay) (level : Nat) (r : Registers) (id : FrameId)
    (vs : List (Registers × FrameId)) :
    numbered p level ((r, id) :: vs)
      = ⟨level, r.rip, r.rsp, r.rbp, id, p.functionAt? r.rip⟩ :: numbered p (level + 1) vs := by
  simp only [numbered, List.zipIdx_cons, List.map_cons]

variable {p : Replay} {s : Settings} (thread : ThreadId)

theorem identify_visit {u : Unwinder} (hu : u.Serves p s) (r : Registers) :
    let v := visit p.host s (p.inBlockOf s.loopSymbol) thread r (u.walk? thread)
    (identify p.host thread r u).value.1.Serves p s
      ∧ (identify p.host thread r u).value.2 = v.2
      ∧ ∀ t, (identify p.host thread r u).value.1.walk? t
        = if t = thread then v.1 else u.walk? t := by
  obtain ⟨hs, ha, hw⟩ := hu.unwind ⟨thread, r.known⟩
  simp only [identify, visit, Traced.value_bind, HostFrame.full, ha]
  rcases hf : Walk.follow p.host s (p.inBlockOf s.loopSymbol) ⟨thread, r.known⟩ (u.walk? thread)
    with ⟨w, _ | unwound⟩
  · rw [hf] at hw
    exact ⟨hs, rfl, hw⟩
  · rw [hf] at hw
    exact ⟨hs, rfl, hw⟩

theorem framesFrom_succ (p : Replay) (thread : ThreadId) (fuel level : Nat) {r : Registers}
    (u : Unwinder) (hr : r.rip ≠ 0) :
    (framesFrom p thread (fuel + 1) level r u).value =
      match (identify p.host thread r u).value with
      | (u, id, none) => (u, [⟨level, r.rip, r.rsp, r.rbp, id, p.functionAt? r.rip⟩])
      | (u, id, some caller) =>
        let rest := (framesFrom p thread fuel (level + 1) caller u).value
        (rest.1, ⟨level, r.rip, r.rsp, r.rbp, id, p.functionAt? r.rip⟩ :: rest.2) := by
  rw [framesFrom, if_neg hr, Traced.value_bind]
  rcases (identify p.host thread r u).value with ⟨u', id, _ | caller⟩ <;> rfl

/-- A backtrace numbers what it visits, and leaves its thread the walk it ends with. -/
theorem framesFrom_visits (fuel : Nat) :
    ∀ (level : Nat) (r : Registers) (u : Unwinder), u.Serves p s →
      let v := visits p.host s (p.inBlockOf s.loopSymbol) thread fuel r (u.walk? thread)
      (framesFrom p thread fuel level r u).value.1.Serves p s
        ∧ (framesFrom p thread fuel level r u).value.2 = numbered p level v.2
        ∧ ∀ t, (framesFrom p thread fuel level r u).value.1.walk? t
          = if t = thread then v.1 else u.walk? t := by
  induction fuel with
  | zero =>
    intro level r u hu
    refine ⟨hu, rfl, fun t => ?_⟩
    simp only [framesFrom, visits, Traced.value_pure]
    split <;> simp_all
  | succ fuel ih =>
    intro level r u hu
    by_cases hz : r.rip = 0
    · simp only [framesFrom, visits, hz, if_true, Traced.value_pure]
      refine ⟨hu, rfl, fun t => ?_⟩
      split <;> simp_all
    · obtain ⟨hs, ha, hw⟩ := identify_visit thread hu r
      rw [framesFrom_succ p thread fuel level u hz]
      simp only [visits, if_neg hz]
      rcases hi : (identify p.host thread r u).value with ⟨u', id, c⟩
      rcases hv : visit p.host s (p.inBlockOf s.loopSymbol) thread r (u.walk? thread)
        with ⟨w, id', c'⟩
      rw [hi, hv] at ha
      rw [hi] at hs
      rw [hi, hv] at hw
      obtain ⟨rfl, rfl⟩ : id = id' ∧ c = c' := by simpa using ha
      rcases c with _ | caller
      · exact ⟨hs, (numbered_cons p level r id []).symm, hw⟩
      · have hself : u'.walk? thread = w := (hw thread).trans (if_pos rfl)
        obtain ⟨hs', hf', hw'⟩ := ih (level + 1) caller u' hs
        rw [hself] at hf' hw'
        refine ⟨hs', ?_, fun t => ?_⟩
        · simp only [hf', numbered_cons]
        · rw [hw' t]
          split
          · rfl
          · rename_i hne
            exact (hw t).trans (if_neg hne)

/-- What a backtrace answers about a thread without a walk, and the walk it leaves behind. -/
theorem frames_visited {u : Unwinder} (hu : u.Serves p s) (hfree : u.walk? thread = none) :
    (frames p thread u).value.1.Serves p s
      ∧ (frames p thread u).value.2 = (visited? p s thread).map (fun v => numbered p 0 v.2)
      ∧ ∀ t, (frames p thread u).value.1.walk? t
        = if t = thread then (visited? p s thread).bind Prod.fst else u.walk? t := by
  unfold frames visited?
  rcases p.thread? thread with _ | state
  · refine ⟨hu, rfl, fun t => ?_⟩
    simp only [Traced.value_pure, Option.map_none, Option.bind_none]
    split <;> simp_all
  · obtain ⟨hs, hf, hw⟩ := framesFrom_visits thread limit 0 state.registers u hu
    rw [hfree] at hf hw
    exact ⟨hs, congrArg some hf, hw⟩

section Congr

variable {h k : Host} (hread : k.read = h.read)
include hread

theorem readWord_congr : Attempt.readWord k = Attempt.readWord h := by
  funext addr
  simp only [Attempt.readWord, Traced.readWord, Host.readWord, hread]

theorem step_congr : Walk.step k = Walk.step h := by
  funext f w
  simp only [Walk.step, Walk.stepAt, Walk.caller, CallRecord.readBelow, CallRecord.readField,
    Slot.readTagged, Slot.read, readWord_congr hread]

theorem nativeCaller_congr : nativeCaller k = nativeCaller h := by
  funext r
  simp only [nativeCaller, Traced.readWord, Host.readWord, hread]

/-- A backtrace sees memory, and the names of symbols. -/
theorem visits_congr (hlookup : k.lookup = h.lookup) (s : Settings) (inside : Word → Bool)
    (thread : ThreadId) (fuel : Nat) :
    visits k s inside thread fuel = visits h s inside thread fuel := by
  have hbegin : Walk.begin k = Walk.begin h := by
    funext f s
    simp only [Walk.begin, ContextView.read, Traced.lookup, readWord_congr hread, hlookup]
  have hvisit : visit k s inside thread = visit h s inside thread := by
    funext r w
    rcases w with _ | w
    · simp only [visit, Walk.follow, hbegin, nativeCaller_congr hread]
    · simp only [visit, Walk.follow, step_congr hread, nativeCaller_congr hread]
  induction fuel with
  | zero => rfl
  | succ fuel ih =>
    funext r w
    simp only [visits, hvisit, ih]

end Congr

/-- What a backtrace visits stays the same when the code is laid out anew with its symbols. -/
theorem visited?_reload (p : Replay) (s : Settings) (thread : ThreadId) :
    visited? p.reload.value s thread = visited? p s thread := by
  have hsym : p.reload.value.symbols = p.symbols := rfl
  have hin : p.reload.value.inBlockOf s.loopSymbol = p.inBlockOf s.loopSymbol :=
    funext fun pc => Replay.inBlockOf_congr hsym s.loopSymbol pc
  have hread : p.reload.value.host.read = p.host.read := rfl
  unfold visited?
  rw [hin, visits_congr hread rfl]
  rfl

theorem numbered_reload (p : Replay) (level : Nat) (vs : List (Registers × FrameId)) :
    numbered p.reload.value level vs = numbered p level vs := rfl

end Backtrace

end MixedStack
