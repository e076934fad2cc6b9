import MixedStack.Proofs.Footprint

/-!
# What a walk says of its end

A step notes one event, which follows from the caller it finds. It looks at the limit first: a walk
that took as many callers as it may reads nothing and says that the chain is corrupt, also where it
has reached the base of the managed stack. Only below the limit does it tell a chain that is complete
from one that is not (`Walk.ending_noted`).
-/

namespace MixedStack

section Events

variable {α β : Type}

namespace Traced

@[simp] theorem events_pure (v : α) : (pure v : Traced α).events = [] := rfl

@[simp] theorem events_bind (x : Traced α) (f : α → Traced β) :
    (x >>= f).events = x.events ++ (f x.value).events :=
  List.filterMap_append

@[simp] theorem events_map (f : α → β) (x : Traced α) : (f <$> x).events = x.events := by
  rw [← bind_pure_comp, events_bind, events_pure, List.append_nil]

end Traced

namespace Attempt

/-- Nothing is noted on the way to the answer. -/
def Quiet (x : Attempt α) : Prop :=
  x.outcome.events = []

theorem quiet_pure (v : α) : (pure v : Attempt α).Quiet := rfl

theorem quiet_throw (e : Fault) : (throw e : Attempt α).Quiet := rfl

theorem quiet_settled (x : Except Fault α) : (settled x).Quiet := rfl

theorem quiet_readWord (h : Host) (addr : Word) : (readWord h addr).Quiet := rfl

theorem Quiet.map {x : Attempt α} (hx : x.Quiet) (f : α → β) : (f <$> x).Quiet := by
  unfold Quiet outcome at hx ⊢
  rw [ExceptT.run_map, Traced.events_map, hx]

theorem Quiet.bind {x : Attempt α} (hx : x.Quiet) {f : α → Attempt β} (hf : ∀ v, (f v).Quiet) :
    (x >>= f).Quiet := by
  unfold Quiet outcome at hx hf ⊢
  rw [ExceptT.run_bind, Traced.events_bind, hx]
  rcases (ExceptT.run x).value with fault | v
  · rfl
  · exact hf v

end Attempt

end Events

theorem Slot.quiet_readTagged (h : Host) (addr : Word) (t : Tag) : (readTagged h addr t).Quiet := by
  unfold readTagged Slot.read
  refine ((Attempt.quiet_readWord h addr).map _).bind fun s => ?_
  split
  · exact Attempt.quiet_pure _
  · exact Attempt.quiet_throw _

theorem CallRecord.quiet_readField (h : Host) (bp : Word) (n : Nat) (t : Tag) :
    (readField h bp n t).Quiet :=
  (Attempt.quiet_settled _).bind fun addr => Slot.quiet_readTagged h addr t

theorem CallRecord.quiet_readBelow (h : Host) (bp : Word) : (readBelow h bp).Quiet :=
  (quiet_readField h bp _ _).bind fun _ => (quiet_readField h bp _ _).bind fun _ =>
    (quiet_readField h bp _ _).bind fun _ => (quiet_readField h bp _ _).bind fun _ =>
      Attempt.quiet_pure _

namespace Walk

variable {h : Host} {w : Walk} {r : CallRecord}

theorem quiet_caller (h : Host) (w : Walk) : (w.caller h).Quiet := by
  unfold caller
  split
  · exact Attempt.quiet_throw _
  split
  · exact Attempt.quiet_pure _
  refine (CallRecord.quiet_readBelow h w.cursor).bind fun r => ?_
  split
  · exact Attempt.quiet_pure _
  split
  · exact Attempt.quiet_throw _
  · exact Attempt.quiet_pure _

/-- The frame at the cursor is the outermost one on the managed stack: no record lies below it, or the
one there names the base. -/
def AtBase (h : Host) (w : Walk) : Prop :=
  w.cursor = w.stackBase
    ∨ ∃ r, (CallRecord.readBelow h w.cursor).outcome.value = .ok r ∧ r.callerBp = w.stackBase

/-- The limit is looked at before anything else. -/
theorem caller_of_limit_le (h : Host) (hl : w.limit ≤ w.taken) :
    w.caller h = throw (.corruptChain w.cursor w.cursor) := by
  unfold caller
  rw [if_pos hl]

theorem caller_eq_native :
    (w.caller h).outcome.value = .ok .native ↔ w.taken < w.limit ∧ w.AtBase h := by
  rw [caller_value, AtBase]
  by_cases hl : w.limit ≤ w.taken
  · rw [if_pos hl]
    exact ⟨nofun, fun hlt => absurd hl (Nat.not_le.2 hlt.1)⟩
  rw [if_neg hl, and_iff_right (Nat.not_le.1 hl)]
  by_cases hb : w.cursor = w.stackBase
  · rw [if_pos hb]
    exact iff_of_true rfl (.inl hb)
  rw [if_neg hb, or_iff_right hb]
  rcases (CallRecord.readBelow h w.cursor).outcome.value with fault | r
  · exact ⟨nofun, nofun⟩
  simp only [Except.ok.injEq, exists_eq_left', Except.bind]
  split
  · exact iff_of_true rfl ‹_›
  · split <;> exact iff_of_false nofun ‹_›

theorem caller_eq_interpreted :
    (w.caller h).outcome.value = .ok (.interpreted r) ↔ w.next? h = some r := by
  refine ⟨fun hc => ?_, caller_of_some⟩
  rcases hn : w.next? h with _ | r'
  · exact absurd hc (caller_of_none hn r)
  · rw [caller_of_some hn] at hc
    cases hc
    rfl

/-- No caller is found at the limit, whatever lies below the cursor, and otherwise where the frame is
not the outermost one and has no caller on the managed stack either. -/
theorem caller_eq_error :
    (∃ fault, (w.caller h).outcome.value = .error fault)
      ↔ w.limit ≤ w.taken ∨ ¬ w.AtBase h ∧ recordBelow? h w.stackBase w.cursor = none := by
  by_cases hl : w.limit ≤ w.taken
  · rw [caller_of_limit_le h hl]
    exact iff_of_true ⟨_, rfl⟩ (.inl hl)
  rw [or_iff_right hl]
  have hlt := Nat.not_le.1 hl
  rcases hc : (w.caller h).outcome.value with fault | _ | r
  · refine iff_of_true ⟨fault, rfl⟩ ⟨fun hb => ?_, ?_⟩
    · cases hc.symm.trans (caller_eq_native.2 ⟨hlt, hb⟩)
    · rcases hr : recordBelow? h w.stackBase w.cursor with _ | r
      · rfl
      · cases hc.symm.trans (caller_of_some (next?_eq_some.2 ⟨hlt, hr⟩))
  · exact iff_of_false nofun fun hn => hn.1 (caller_eq_native.1 hc).2
  · refine iff_of_false nofun fun hn => ?_
    cases hn.2.symm.trans (next?_eq_some.1 (caller_eq_interpreted.1 hc)).2

/-- What is noted of the caller that was found for a frame. -/
def callerEvent (id : FrameId) : Except Fault Caller → Event
  | .ok .native => .reachedBase id
  | .ok (.interpreted r) => .interpreted id r.function r.callType r.callerIp
  | .error fault => .truncated id fault

theorem callerEvent_eq_reachedBase {id : FrameId} {x : Except Fault Caller} :
    callerEvent id x = .reachedBase id ↔ x = .ok .native := by
  rcases x with fault | _ | r <;> simp [callerEvent]

theorem level_callerEvent {id : FrameId} {x : Except Fault Caller} :
    (callerEvent id x).level = .warn ↔ ∃ fault, x = .error fault := by
  rcases x with fault | _ | r <;> simp [callerEvent, Event.level]

theorem events_stepAt (h : Host) (id : FrameId) (w : Walk) :
    (w.stepAt h id).events = [callerEvent id (w.caller h).outcome.value] := by
  unfold stepAt
  rw [Traced.events_bind, quiet_caller h w]
  rcases (w.caller h).outcome.value with fault | _ | r <;> rfl

theorem step_eq {f : HostFrame} {pc sp : Word} (hp : w.phase ≠ .complete)
    (hpc : f.registers.rip = some pc) (hsp : f.registers.rsp = some sp) :
    w.step h f = do
      let x ← w.stepAt h ⟨sp, pc, some w.cursor⟩
      return (x.1, some x.2) := by
  unfold step
  rw [if_neg hp, hpc, hsp]

section Step

variable {f : HostFrame} {pc sp : Word}

theorem events_step (hp : w.phase ≠ .complete) (hpc : f.registers.rip = some pc)
    (hsp : f.registers.rsp = some sp) :
    (w.step h f).events
      = [callerEvent ⟨sp, pc, some w.cursor⟩ (w.caller h).outcome.value] := by
  rw [step_eq hp hpc hsp, Traced.events_bind, events_stepAt]
  rfl

/-- A walk at its limit reads nothing more. -/
theorem touched_step_of_limit_le (hl : w.limit ≤ w.taken) : (w.step h f).touched = [] := by
  unfold step
  split
  · rfl
  split
  · rw [Traced.touched_bind, touched_stepAt, caller_of_limit_le h hl]
    rfl
  · rfl

/-- Without a caller on the managed stack, the host gets the registers that the walk began with. -/
theorem value_step_of_none (hp : w.phase ≠ .complete) (hpc : f.registers.rip = some pc)
    (hsp : f.registers.rsp = some sp) (hn : w.next? h = none) :
    (w.step h f).value = (w.finish, some ⟨⟨sp, pc, some w.cursor⟩, w.entry⟩) := by
  rw [step_eq hp hpc hsp, Traced.value_bind, stepAt_of_none _ hn]
  rfl

theorem next?_of_ending (hend : w.limit ≤ w.taken ∨ w.AtBase h) : w.next? h = none := by
  rcases hn : w.next? h with _ | r
  · rfl
  obtain ⟨hlt, hrec⟩ := next?_eq_some.1 hn
  rcases hend with hl | hbase
  · exact absurd hl (Nat.not_le.2 hlt)
  · cases (caller_of_some hn).symm.trans (caller_eq_native.2 ⟨hlt, hbase⟩)

end Step

section Begun

variable {f : HostFrame} {s : Settings} {unwound : Unwound}

theorem limit_of_begin (hb : (begin h f s).outcome.value = .ok (w, unwound)) :
    w.limit = s.callerLimit.toNat := by
  obtain ⟨e, c, -, -, rfl, -⟩ := begin_eq_ok.1 hb
  rfl

/-- A walk that began counts the callers it takes, up to its limit. -/
theorem from_play_of_begin (hb : (begin h f s).outcome.value = .ok (w, unwound))
    (asks : List (Host × HostFrame)) :
    (play turn w asks).1.From w
      ∧ (play turn w asks).1.taken = (play turn w asks).2.countP GoesOn
      ∧ (play turn w asks).1.taken ≤ s.callerLimit.toNat := by
  have hlimit := limit_of_begin hb
  obtain ⟨e, c, -, -, rfl, -⟩ := begin_eq_ok.1 hb
  have hbegun : (entered e c s.callerLimit.toNat).From (entered e c s.callerLimit.toNat) :=
    ⟨rfl, rfl, rfl, Nat.zero_le _, Nat.le_refl _, fun h => absurd h (Nat.lt_irrefl 0)⟩
  obtain ⟨hx, htaken, -⟩ := From.play asks hbegun
  refine ⟨hx, htaken.trans (Nat.zero_add _), ?_⟩
  exact Nat.le_trans hx.taken_le (Nat.le_of_eq (hx.limit.trans hlimit))

end Begun

/-- A walk that is asked about a frame notes one event. Whether the frame is the outermost one on the
managed stack is said, without a warning, as long as the walk took fewer callers than its limit. At
the limit, the chain is said to be corrupt where it stands, and memory is not read, so also if the
frame is the outermost one and the walk did not have to go on. Either way the host gets the same
answer. Below the limit, there is a warning only if the frame neither is the outermost one nor has a
caller on the managed stack. -/
theorem ending_noted {h : Host} {f : HostFrame} {s : Settings} {w : Walk} {unwound : Unwound}
    (hb : (begin h f s).outcome.value = .ok (w, unwound)) (asks : List (Host × HostFrame)) :
    let x := play turn w asks
    let taken := x.2.countP GoesOn
    let limit := s.callerLimit.toNat
    taken ≤ limit
      ∧ (x.1.phase ≠ .complete → ∀ (h' : Host) (f' : HostFrame) (pc sp : Word),
        f'.registers.rip = some pc → f'.registers.rsp = some sp →
        let id : FrameId := ⟨sp, pc, some x.1.cursor⟩
        let next := x.1.step h' f'
        ∃ e, next.events = [e]
          ∧ ((x.1.caller h').outcome.value = .ok .native ↔ taken < limit ∧ x.1.AtBase h')
          ∧ (e = .reachedBase id ↔ taken < limit ∧ x.1.AtBase h')
          ∧ (e.level = .warn ↔ taken = limit
            ∨ ¬ x.1.AtBase h' ∧ recordBelow? h' x.1.stackBase x.1.cursor = none)
          ∧ (taken = limit →
            e = .truncated id (.corruptChain x.1.cursor x.1.cursor) ∧ next.touched = [])
          ∧ (taken = limit ∨ x.1.AtBase h' →
            next.value = (x.1.finish, some ⟨id, w.entry⟩))) := by
  obtain ⟨hx, htaken, hle⟩ := from_play_of_begin hb asks
  rw [htaken] at hle
  refine ⟨hle, fun hp h' f' pc sp hpc hsp => ?_⟩
  generalize play turn w asks = x at *
  have hlimit : x.1.limit = s.callerLimit.toNat := hx.limit.trans (limit_of_begin hb)
  -- no walk passes its limit, so to be at it is what the step tests
  have hends : x.2.countP GoesOn = s.callerLimit.toNat ↔ x.1.limit ≤ x.1.taken := by
    rw [hlimit, htaken]
    exact ⟨Nat.le_of_eq ∘ Eq.symm, Nat.le_antisymm hle⟩
  have hnative : (x.1.caller h').outcome.value = .ok .native
      ↔ x.2.countP GoesOn < s.callerLimit.toNat ∧ x.1.AtBase h' := by
    rw [caller_eq_native, hlimit, htaken]
  refine ⟨_, events_step hp hpc hsp, hnative, callerEvent_eq_reachedBase.trans hnative,
    ?_, fun hl => ?_, fun hend => ?_⟩
  · rw [level_callerEvent, caller_eq_error, hends]
  · rw [hends] at hl
    rw [caller_of_limit_le h' hl]
    exact ⟨rfl, touched_step_of_limit_le hl⟩
  · rw [hends] at hend
    rw [← hx.entry]
    exact value_step_of_none hp hpc hsp (next?_of_ending hend)

/-- The record below the outermost activation of `threeCalls`. -/
def outermost : CallRecord where
  callType := 0
  callerBp := 0x4000
  callerIp := 0x700
  function := 1

/-- The chain of `threeCalls` has two callers, which are fewer than the standard limit, so that its
end is told for what it is. -/
theorem ending_noted_threeCalls :
    let w := entered ⟨0x1010, 0x8000, 0x8010⟩ ⟨0x500, 0x40c0, 0x4000, 0x40e0⟩ 4096
    let asks := [(threeCalls.host, HostFrame.full 1 ⟨0x500, 0x40e0, 0x40c0⟩),
      (threeCalls.host, .full 1 ⟨0x580, 0x40a0, 0x4080⟩)]
    (begin threeCalls.host (.full 1 ⟨0x1010, 0x8000, 0x8010⟩) .standard).outcome.value
        = .ok (w, ⟨⟨0x40e0, 0x500, none⟩, ⟨0x500, 0x40e0, 0x40c0⟩⟩)
      ∧ (play turn w asks).1.phase ≠ .complete
      ∧ (play turn w asks).1.AtBase threeCalls.host
      ∧ ((play turn w asks).1.step threeCalls.host (.full 1 ⟨0x600, 0x4060, 0x4040⟩)).events
        = [.reachedBase ⟨0x4060, 0x600, some 0x4040⟩] := by
  intro w asks
  have hb : (begin threeCalls.host (.full 1 ⟨0x1010, 0x8000, 0x8010⟩) .standard).outcome.value
      = .ok (w, ⟨⟨0x40e0, 0x500, none⟩, ⟨0x500, 0x40e0, 0x40c0⟩⟩) := rfl
  have hp : (play turn w asks).1.phase ≠ .complete := by decide +kernel
  have hsteps : (play turn w asks).2.countP GoesOn = 2 := by decide +kernel
  have hcursor : (play turn w asks).1.cursor = 0x4040 := by decide +kernel
  have hnamed : outermost.callerBp = (play turn w asks).1.stackBase := by decide +kernel
  have hbase : (play turn w asks).1.AtBase threeCalls.host :=
    .inr ⟨outermost, hcursor ▸ rfl, hnamed⟩
  obtain ⟨e, hevents, -, hreached, -⟩ :=
    (ending_noted hb asks).2 hp threeCalls.host (.full 1 ⟨0x600, 0x4060, 0x4040⟩) 0x600 0x4060
      rfl rfl
  rw [hsteps, hcursor] at hreached
  have he := hreached.2 ⟨by decide, hbase⟩
  exact ⟨hb, hp, hbase, he ▸ hevents⟩

/-- The standard settings, but that a walk takes at most two callers. -/
def twoCallers : Settings :=
  { Settings.standard with callerLimit := 2 }

/-- With room for two callers and no more, the same chain is said to be corrupt where it ends. -/
theorem corrupt_atBase_threeCalls :
    let w := entered ⟨0x1010, 0x8000, 0x8010⟩ ⟨0x500, 0x40c0, 0x4000, 0x40e0⟩ 2
    let asks := [(threeCalls.host, HostFrame.full 1 ⟨0x500, 0x40e0, 0x40c0⟩),
      (threeCalls.host, .full 1 ⟨0x580, 0x40a0, 0x4080⟩)]
    (begin threeCalls.host (.full 1 ⟨0x1010, 0x8000, 0x8010⟩) twoCallers).outcome.value
        = .ok (w, ⟨⟨0x40e0, 0x500, none⟩, ⟨0x500, 0x40e0, 0x40c0⟩⟩)
      ∧ (play turn w asks).1.AtBase threeCalls.host
      ∧ recordBelow? threeCalls.host (play turn w asks).1.stackBase (play turn w asks).1.cursor
        = none
      ∧ ((play turn w asks).1.step threeCalls.host (.full 1 ⟨0x600, 0x4060, 0x4040⟩)).events
        = [.truncated ⟨0x4060, 0x600, some 0x4040⟩ (.corruptChain 0x4040 0x4040)]
      ∧ (Event.truncated ⟨0x4060, 0x600, some 0x4040⟩ (.corruptChain 0x4040 0x4040)).level
        = .warn := by
  intro w asks
  have hevents : ((play turn w asks).1.step threeCalls.host
      (.full 1 ⟨0x600, 0x4060, 0x4040⟩)).events
        = [.truncated ⟨0x4060, 0x600, some 0x4040⟩ (.corruptChain 0x4040 0x4040)] := by
    decide +kernel
  have hnone : recordBelow? threeCalls.host (play turn w asks).1.stackBase
      (play turn w asks).1.cursor = none := by decide +kernel
  have hcursor : (play turn w asks).1.cursor = 0x4040 := by decide +kernel
  have hnamed : outermost.callerBp = (play turn w asks).1.stackBase := by decide +kernel
  exact ⟨rfl, .inr ⟨outermost, hcursor ▸ rfl, hnamed⟩, hnone, hevents, rfl⟩

end Walk

end MixedStack
