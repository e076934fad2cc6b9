import Mathlib.Algebra.Group.Nat.Defs
import MixedStack.Proofs.Chain
import MixedStack.Proofs.Visits

/-!
# Backtraces as spliced walks

Frame pointers alone lead from a thread's registers along its native frames (`nativeFrames`). A
backtrace is that list with the interpreted activations put in behind the first frame of the
dispatch loop (`spliced`): the frame of the loop stands for the boundary, the activations follow,
and behind them the native frames go on with the loop's own. A backtrace ends early only at its
limit, or at an activation without an instruction (`Backtrace.frames_spliced`).
-/

namespace MixedStack

namespace Backtrace

theorem rsp_lt_of_nativeCaller {h : Host} {r caller : Registers}
    (hc : (nativeCaller h r).value = some caller) : r.rsp < caller.rsp := by
  unfold nativeCaller at hc
  split at hc
  · cases hc
  rw [Traced.value_bind] at hc
  split at hc
  · cases hc
  split at hc
  · cases hc
  rw [Traced.value_bind] at hc
  split at hc
  · cases hc
  split at hc
  · cases hc
  split at hc
  · cases hc
  · rename_i hle
    cases hc
    exact UInt64.not_le.1 hle

end Backtrace

/-- The native frames from these registers on, found by frame pointers. -/
def nativeFrames (h : Host) (r : Registers) : List Registers :=
  if r.rip = 0 then []
  else
    match hc : (Backtrace.nativeCaller h r).value with
    | none => [r]
    | some caller =>
      have := UInt64.lt_iff_toNat_lt.1 (Backtrace.rsp_lt_of_nativeCaller hc)
      r :: nativeFrames h caller
termination_by 2 ^ 64 - r.rsp.toNat
decreasing_by
  -- Callers lie strictly above their callees, and the last address bounds them.
  have hmax := caller.rsp.toNat_lt
  omega

theorem nativeFrames_of_zero {h : Host} {r : Registers} (hz : r.rip = 0) :
    nativeFrames h r = [] := by
  rw [nativeFrames, if_pos hz]

theorem nativeFrames_of_none {h : Host} {r : Registers} (hz : r.rip ≠ 0)
    (hc : (Backtrace.nativeCaller h r).value = none) : nativeFrames h r = [r] := by
  rw [nativeFrames, if_neg hz]
  split <;> simp_all

theorem nativeFrames_of_some {h : Host} {r caller : Registers} (hz : r.rip ≠ 0)
    (hc : (Backtrace.nativeCaller h r).value = some caller) :
    nativeFrames h r = r :: nativeFrames h caller := by
  rw [nativeFrames, if_neg hz]
  split <;> simp_all

/-- A native frame with its identity. -/
def Registers.native (r : Registers) : Registers × FrameId := (r, r.nativeId)

/-- The frames of activations up to the first without an instruction. Behind all of them comes
`after`. -/
def interpreted (as : List Registers) (after : List (Registers × FrameId)) :
    List (Registers × FrameId) :=
  (as.takeWhile fun a => a.rip ≠ 0).map (fun a => (a, a.activationId))
    ++ if as.all fun a => a.rip ≠ 0 then after else []

/-- Native frames with the activations `as` put in behind the first frame of the dispatch loop,
which shows the boundary `id`. -/
def spliced (inside : Word → Bool) (id : FrameId) (as ns : List Registers) :
    List (Registers × FrameId) :=
  match ns.dropWhile fun n => !inside n.rip with
  | [] => ns.map Registers.native
  | e :: outer =>
    (ns.takeWhile fun n => !inside n.rip).map Registers.native
      ++ (e, id) :: interpreted as ((e :: outer).map Registers.native)

theorem nativeFrames_eq_cons {h : Host} {r : Registers} (hz : r.rip ≠ 0) :
    ∃ ns, nativeFrames h r = r :: ns := by
  rcases hc : (Backtrace.nativeCaller h r).value with _ | caller
  · exact ⟨[], nativeFrames_of_none hz hc⟩
  · exact ⟨_, nativeFrames_of_some hz hc⟩

theorem interpreted_of_zero {a : Registers} (as : List Registers)
    (after : List (Registers × FrameId)) (hz : a.rip = 0) : interpreted (a :: as) after = [] := by
  simp [interpreted, hz]

theorem interpreted_cons {a : Registers} (as : List Registers)
    (after : List (Registers × FrameId)) (hz : a.rip ≠ 0) :
    interpreted (a :: as) after = (a, a.activationId) :: interpreted as after := by
  simp [interpreted, hz]

section Spliced

variable {inside : Word → Bool} {id : FrameId} {as ns : List Registers} {n : Registers}

theorem spliced_of_outside (hn : inside n.rip = false) :
    spliced inside id as (n :: ns) = n.native :: spliced inside id as ns := by
  simp only [spliced, List.takeWhile_cons, List.dropWhile_cons, hn, Bool.not_false, if_true,
    List.map_cons]
  split <;> simp

theorem spliced_of_inside (hn : inside n.rip = true) :
    spliced inside id as (n :: ns)
      = (n, id) :: interpreted as ((n :: ns).map Registers.native) := by
  simp [spliced, hn]

end Spliced

namespace Backtrace

variable {h : Host} {s : Settings} {inside : Word → Bool} {thread : ThreadId}

theorem visit_of_complete {w : Walk} (hp : w.phase = .complete) (r : Registers) :
    visit h s inside thread r (some w) = (some w, r.nativeId, (nativeCaller h r).value) := by
  simp only [visit, Walk.follow, Walk.step_of_complete hp]

/-- Without a walk to go on with, a backtrace visits the native frames. -/
theorem visits_native {w : Option Walk}
    (hw : ∀ r, visit h s inside thread r w = (w, r.nativeId, (nativeCaller h r).value))
    (fuel : Nat) : ∀ r, (visits h s inside thread fuel r w).2
      = ((nativeFrames h r).map Registers.native).take fuel := by
  induction fuel with
  | zero => exact fun r => rfl
  | succ fuel ih =>
    intro r
    by_cases hz : r.rip = 0
    · simp only [visits, hz, if_true, nativeFrames_of_zero hz, List.map_nil, List.take_nil]
    · simp only [visits, hz, if_false, hw]
      rcases hc : (nativeCaller h r).value with _ | caller
      · simp [nativeFrames_of_none hz hc, Registers.native]
      · simp only [nativeFrames_of_some hz hc, List.map_cons, List.take_succ_cons, ← ih caller]
        rfl

/-- From an activation on, a backtrace visits the activations ahead of the walk, and then the native
frames from the registers the walk began with. -/
theorem visits_of_walk (fuel : Nat) :
    ∀ {a : Registers} {w : Walk}, w.phase ≠ .complete → a.rbp = w.cursor →
      (visits h s inside thread fuel a (some w)).2
        = (interpreted (w.ahead h a)
            ((nativeFrames h w.entry).map Registers.native)).take fuel := by
  induction fuel with
  | zero => exact fun _ _ => rfl
  | succ fuel ih =>
    intro a w hp ha
    by_cases hz : a.rip = 0
    · -- The host stops at an activation without an instruction and does not ask about it.
      obtain ⟨as, has⟩ := activations_eq_cons h w.stackBase (w.limit - w.taken) a
      rw [Walk.ahead, has, interpreted_of_zero as _ hz]
      simp only [visits, hz, if_true, List.take_nil]
    · simp only [visits, hz, if_false, visit, Walk.follow]
      rcases hr : w.next? h with _ | r
      · rw [Walk.step_of_none hp ha hr, Walk.ahead_of_none ha hr, interpreted_cons _ _ hz]
        have hdone : (visits h s inside thread fuel w.entry (some w.finish)).2 = _ :=
          visits_native (visit_of_complete rfl) fuel w.entry
        simp only [List.take_succ_cons, hdone, interpreted]
        rfl
      · have hgo :
            (visits h s inside thread fuel (r.callerAt w.cursor) (some (w.advance r))).2 = _ :=
          ih (by simp [Walk.advance]) rfl
        rw [Walk.step_of_some hp ha hr, Walk.ahead_of_some ha hr, interpreted_cons _ _ hz]
        simp only [List.take_succ_cons, hgo]
        rfl

theorem visit_of_outside {r : Registers} (hr : inside r.rip = false) :
    visit h s inside thread r none = (none, r.nativeId, (nativeCaller h r).value) := by
  simp only [visit, Walk.follow, Registers.known, Option.any_some, hr, Bool.false_eq_true,
    if_false]

theorem visit_of_refused {fault : Fault}
    (hc : (ContextView.read h s.contextSymbol s.layout).outcome.value = .error fault)
    (r : Registers) :
    visit h s inside thread r none = (none, r.nativeId, (nativeCaller h r).value) := by
  simp only [visit, Walk.follow, Walk.begin_known, hc, Except.map]
  split <;> simp_all

theorem visit_of_inside {c : ContextView}
    (hc : (ContextView.read h s.contextSymbol s.layout).outcome.value = .ok c) {r : Registers}
    (hr : inside r.rip = true) :
    visit h s inside thread r none
      = (some (Walk.entered r c s.callerLimit.toNat), c.boundary.id, some c.activation) := by
  rw [visit, Walk.follow_inside hr hc]
  rfl

theorem visits_spliced {c : ContextView}
    (hc : (ContextView.read h s.contextSymbol s.layout).outcome.value = .ok c) (fuel : Nat) :
    ∀ r, (visits h s inside thread fuel r none).2
      = (spliced inside c.boundary.id
          (activations h c.stackBase s.callerLimit.toNat c.activation)
          (nativeFrames h r)).take fuel := by
  induction fuel with
  | zero => exact fun r => rfl
  | succ fuel ih =>
    intro r
    by_cases hz : r.rip = 0
    · simp only [visits, hz, if_true, nativeFrames_of_zero hz]
      rfl
    rcases hin : inside r.rip with _ | _
    · simp only [visits, hz, if_false, visit_of_outside hin]
      rcases hn : (nativeCaller h r).value with _ | caller
      · rw [nativeFrames_of_none hz hn, spliced_of_outside hin]
        simp [spliced, Registers.native]
      · simp only [nativeFrames_of_some hz hn, spliced_of_outside hin, List.take_succ_cons,
          ← ih caller]
        rfl
    · have hgo : (visits h s inside thread fuel c.activation
          (some (Walk.entered r c s.callerLimit.toNat))).2 = _ :=
        visits_of_walk fuel (by simp [Walk.entered]) rfl
      obtain ⟨ns, hns⟩ := nativeFrames_eq_cons (h := h) hz
      simp only [visits, hz, if_false, visit_of_inside hc hin, hns, spliced_of_inside hin,
        List.take_succ_cons, hgo]
      simp only [Walk.entered, hns]
      rfl

/-- What a backtrace shows from these registers on, were it not for its limit. -/
def whole (p : Replay) (s : Settings) (r : Registers) : List (Registers × FrameId) :=
  match (ContextView.read p.host s.contextSymbol s.layout).outcome.value with
  | .error _ => (nativeFrames p.host r).map Registers.native
  | .ok c =>
    spliced (p.inBlockOf s.loopSymbol) c.boundary.id
      (activations p.host c.stackBase s.callerLimit.toNat c.activation) (nativeFrames p.host r)

theorem visits_whole (p : Replay) (s : Settings) (thread : ThreadId) (fuel : Nat) (r : Registers) :
    (visits p.host s (p.inBlockOf s.loopSymbol) thread fuel r none).2
      = (whole p s r).take fuel := by
  unfold whole
  rcases hc : (ContextView.read p.host s.contextSymbol s.layout).outcome.value with fault | c
  · exact visits_native (visit_of_refused hc) fuel r
  · exact visits_spliced hc fuel r

theorem map_visited? {β : Type} (p : Replay) (s : Settings) (thread : ThreadId)
    (f : List (Registers × FrameId) → β) :
    (visited? p s thread).map (fun v => f v.2)
      = (p.thread? thread).map fun state => f ((whole p s state.registers).take limit) := by
  rw [visited?, Option.map_map]
  congr 1
  funext state
  simp only [Function.comp_apply, visits_whole]

/-- A backtrace by a new unwinder shows the native frames of the thread with the interpreted ones
spliced in behind the first frame of the dispatch loop, up to its limit. -/
theorem frames_spliced (p : Replay) (s : Settings) (thread : ThreadId) :
    (frames p thread (.new s)).value.2 = (p.thread? thread).map fun state =>
      numbered p 0 ((whole p s state.registers).take limit) := by
  obtain ⟨-, hf, -⟩ := frames_visited thread (Unwinder.serves_new p s) rfl
  rw [hf, map_visited? p s thread (numbered p 0)]

end Backtrace

end MixedStack
