import MixedStack.Proofs.Chain
import MixedStack.Proofs.Records
import MixedStack.Proofs.Turns

/-!
# A walk ends, whatever it is told

Nothing that memory holds or a host asks keeps a walk going. Every activation a walk goes on to
lies strictly between the base of the managed stack and the one before, so the cursor pays for each
with a byte of the stack and the limit with one of its callers (`Walk.From`). Once complete, a walk
answers nothing and asks for nothing. `Walk.answers_bounded` says so for any questions, each of them
with a memory of its own.
-/

namespace MixedStack

/-- The phases that may follow a phase when a walk is asked. -/
inductive Phase.Leads : Phase → Phase → Prop
  | enter : Leads .boundary .interior
  | leave : Leads .boundary .complete
  | goOn : Leads .interior .interior
  | finish : Leads .interior .complete
  | rest : Leads .complete .complete

namespace Walk

/-- A walk is asked about a frame. -/
def turn (w : Walk) (ask : Host × HostFrame) : Walk × List (Phase × Option Unwound) :=
  let next := (w.step ask.1 ask.2).value
  (next.1, [(next.1.phase, next.2)])

/-- The answer leaves the walk among the interpreted frames. -/
def GoesOn (a : Phase × Option Unwound) : Bool :=
  a.1 = .interior ∧ a.2.isSome

/-- How many more answers a walk has that do not go on. -/
def last (w : Walk) : Nat :=
  if w.phase = .complete then 0 else 1

variable {h : Host} {w : Walk} {r : CallRecord}

/-- A walk is complete already, becomes complete, or goes on to the caller that a record names. -/
theorem step_cases (h : Host) (f : HostFrame) (w : Walk) :
    (w.phase = .complete ∧ w.step h f = ⟨(w, none), []⟩)
      ∨ (w.phase ≠ .complete ∧ ∃ answer, (w.step h f).value = (w.finish, answer))
      ∨ (w.phase ≠ .complete ∧ ∃ id r, w.next? h = some r
        ∧ (w.step h f).value = (w.advance r, some ⟨id, r.callerAt w.cursor⟩)) := by
  by_cases hp : w.phase = .complete
  · exact .inl ⟨hp, step_eq_of_complete hp h f⟩
  right
  unfold step
  rw [if_neg hp]
  rcases f.registers.rip with _ | pc
  · exact .inl ⟨hp, none, rfl⟩
  rcases f.registers.rsp with _ | sp
  · exact .inl ⟨hp, none, rfl⟩
  simp only [Traced.value_bind, Traced.value_pure]
  rcases hr : w.next? h with _ | r
  · rw [stepAt_of_none _ hr]
    exact .inl ⟨hp, _, rfl⟩
  · rw [stepAt_of_some _ hr]
    exact .inr ⟨hp, _, r, rfl, rfl⟩

/-- What a walk goes on to lies between the base and the cursor, and the record between them has
room. -/
theorem bounds_of_next? (hr : w.next? h = some r) :
    w.taken < w.limit ∧ w.stackBase < r.callerBp ∧ r.callerBp < w.cursor
      ∧ 32 ≤ w.cursor.toNat ∧ r.callerBp.toNat < 2 ^ 48 := by
  obtain ⟨hlt, hrec⟩ := next?_eq_some.1 hr
  obtain ⟨-, hread, hlo, hhi⟩ := recordBelow?_eq_some.1 hrec
  obtain ⟨hroom, hbits⟩ := CallRecord.bounds_of_readBelow hread
  exact ⟨hlt, hlo, hhi, hroom, hbits⟩

theorem leads_step (h : Host) (f : HostFrame) (w : Walk) :
    w.phase.Leads (w.step h f).value.1.phase := by
  rcases w.step_cases h f with ⟨hp, hs⟩ | ⟨hp, answer, hs⟩ | ⟨hp, id, r, -, hs⟩ <;> rw [hs]
  · rw [hp]
    exact .rest
  · show w.phase.Leads .complete
    cases hw : w.phase with
    | boundary => exact .leave
    | interior => exact .finish
    | complete => exact absurd hw hp
  · show w.phase.Leads .interior
    cases hw : w.phase with
    | boundary => exact .enter
    | interior => exact .goOn
    | complete => exact absurd hw hp

/-- A walk got here from where it began: every caller it took moved the cursor down, and none of them
to the base. -/
structure From (w w₀ : Walk) : Prop where
  entry : w.entry = w₀.entry
  stackBase : w.stackBase = w₀.stackBase
  limit : w.limit = w₀.limit
  taken_le : w.taken ≤ w.limit
  cursor_add_taken_le : w.cursor.toNat + w.taken ≤ w₀.cursor.toNat
  base_lt : 0 < w.taken → w.stackBase.toNat < w.cursor.toNat

variable {w₀ : Walk}

theorem From.finish (hw : w.From w₀) : w.finish.From w₀ :=
  ⟨hw.entry, hw.stackBase, hw.limit, hw.taken_le, hw.cursor_add_taken_le, hw.base_lt⟩

theorem From.advance (hw : w.From w₀) (hr : w.next? h = some r) :
    (w.advance r).From w₀ := by
  obtain ⟨hlt, hlo, hhi, -, -⟩ := bounds_of_next? hr
  rw [UInt64.lt_iff_toNat_lt] at hlo hhi
  have hcursor := hw.cursor_add_taken_le
  refine ⟨hw.entry, hw.stackBase, hw.limit, ?_, ?_, fun _ => hlo⟩
  · show w.taken + 1 ≤ w.limit
    omega
  · show r.callerBp.toNat + (w.taken + 1) ≤ w₀.cursor.toNat
    omega

/-- A turn counts the caller it takes, and uses up the last answer if it answers without one. -/
theorem From.turn (hw : w.From w₀) (ask : Host × HostFrame) :
    (w.turn ask).1.From w₀
      ∧ (w.turn ask).1.taken = w.taken + (w.turn ask).2.countP GoesOn
      ∧ (w.turn ask).2.countP (fun a => a.2.isSome) + (w.turn ask).1.last
        ≤ (w.turn ask).2.countP GoesOn + w.last := by
  obtain ⟨h, f⟩ := ask
  unfold Walk.turn
  rcases w.step_cases h f with ⟨hp, hs⟩ | ⟨hp, answer, hs⟩ | ⟨hp, id, r, hr, hs⟩ <;>
    simp only [hs]
  · refine ⟨hw, ?_, ?_⟩ <;> simp [GoesOn]
  · refine ⟨hw.finish, ?_, ?_⟩
    · simp [GoesOn, Walk.finish]
    · cases answer <;> simp [GoesOn, Walk.finish, last, hp]
  · refine ⟨hw.advance hr, ?_, ?_⟩
    · simp [GoesOn, Walk.advance]
    · simp [GoesOn, Walk.advance, last, hp]

theorem From.play : ∀ (asks : List (Host × HostFrame)) {w : Walk}, w.From w₀ →
    (play Walk.turn w asks).1.From w₀
      ∧ (play Walk.turn w asks).1.taken = w.taken + (play Walk.turn w asks).2.countP GoesOn
      ∧ (play Walk.turn w asks).2.countP (fun a => a.2.isSome) + (play Walk.turn w asks).1.last
        ≤ (play Walk.turn w asks).2.countP GoesOn + w.last
  | [], _, hw => ⟨hw, by simp [MixedStack.play], by simp [MixedStack.play]⟩
  -- memory may differ from one question to the next, so all that is handed on is `From`
  | ask :: asks, w, hw => by
    obtain ⟨hw', htaken, hsome⟩ := hw.turn ask
    obtain ⟨hend, htaken', hsome'⟩ := From.play asks hw'
    refine ⟨hend, ?_, ?_⟩
    · simp only [MixedStack.play, List.countP_append]
      omega
    · simp only [MixedStack.play, List.countP_append]
      omega

theorem step_of_interior {f : HostFrame} (hp : (w.step h f).value.1.phase = .interior) :
    w.stackBase < (w.step h f).value.1.cursor ∧ (w.step h f).value.1.cursor < w.cursor
      ∧ (w.step h f).value.1.cursor.toNat < 2 ^ 48
      ∧ ∃ id caller, (w.step h f).value.2 = some ⟨id, caller⟩
        ∧ caller.rsp.toNat + 32 = w.cursor.toNat := by
  rcases w.step_cases h f with ⟨hc, hs⟩ | ⟨-, answer, hs⟩ | ⟨-, id, r, hr, hs⟩ <;>
    rw [hs] at hp ⊢
  · cases hc.symm.trans hp
  · cases hp
  · obtain ⟨-, hlo, hhi, hroom, hbits⟩ := bounds_of_next? hr
    exact ⟨hlo, hhi, hbits, id, _, rfl, CallRecord.toNat_callerSp hroom⟩

theorem begin_eq_ok {f : HostFrame} {s : Settings} {unwound : Unwound} :
    (begin h f s).outcome.value = .ok (w, unwound) ↔
      ∃ e c, f.readAll = .ok e
        ∧ (ContextView.read h s.contextSymbol s.layout).outcome.value = .ok c
        ∧ w = entered e c s.callerLimit.toNat ∧ unwound = c.boundary := by
  simp only [begin, Attempt.bind_eq_ok, Attempt.ofHost_eq_ok, Attempt.value_outcome_lift,
    Attempt.value_outcome_pure]
  constructor
  · rintro ⟨e, he, c, hc, _, -, hb⟩
    cases hb
    exact ⟨e, c, he, hc, rfl, rfl⟩
  · rintro ⟨e, c, he, hc, rfl, rfl⟩
    exact ⟨e, he, c, hc, (), trivial, rfl⟩

/-- A walk that began in a context goes on at most as often as its limit says, and as there are bytes
between the base and the context's frame pointer. Behind the answers that go on comes at most one.
Each goes on to an activation strictly between the base and the one before, where the record between
them has room. Neither the base nor the registers to go back to ever change, and once complete, a
walk answers none and does nothing. -/
theorem answers_bounded {h : Host} {f : HostFrame} {s : Settings} {w : Walk} {unwound : Unwound}
    (hb : (begin h f s).outcome.value = .ok (w, unwound)) (asks : List (Host × HostFrame)) :
    ∃ c, (ContextView.read h s.contextSymbol s.layout).outcome.value = .ok c
      ∧ w.phase = .boundary ∧ w.stackBase = c.stackBase ∧ w.cursor = c.bp
      ∧ let x := play turn w asks
        let steps := x.2.countP GoesOn
        (∀ h' f', let next := (x.1.step h' f').value
          next.1.entry = w.entry ∧ next.1.stackBase = w.stackBase
            ∧ x.1.phase.Leads next.1.phase
            ∧ (next.1.phase = .interior →
              c.stackBase < next.1.cursor ∧ next.1.cursor < x.1.cursor
                ∧ next.1.cursor.toNat < 2 ^ 48
                ∧ ∃ id caller, next.2 = some ⟨id, caller⟩
                  ∧ caller.rsp.toNat + 32 = x.1.cursor.toNat)
            ∧ (x.1.phase = .complete → x.1.step h' f' = ⟨(x.1, none), []⟩))
          ∧ steps ≤ s.callerLimit.toNat
          ∧ steps ≤ c.bp.toNat - c.stackBase.toNat - 1
          ∧ x.2.countP (fun a => a.2.isSome) ≤ steps + 1 := by
  obtain ⟨e, c, -, hc, rfl, -⟩ := begin_eq_ok.1 hb
  have hbegun : (entered e c s.callerLimit.toNat).From (entered e c s.callerLimit.toNat) :=
    ⟨rfl, rfl, rfl, Nat.zero_le _, Nat.le_refl _, fun h => absurd h (Nat.lt_irrefl 0)⟩
  obtain ⟨hx, htaken, hsome⟩ := From.play asks hbegun
  have hzero : (entered e c s.callerLimit.toNat).taken = 0 := rfl
  have hbase : (play turn (entered e c s.callerLimit.toNat) asks).1.stackBase = c.stackBase :=
    hx.stackBase
  rw [hzero, Nat.zero_add] at htaken
  refine ⟨c, hc, rfl, rfl, rfl, fun h' f' => ?_, ?_, ?_, ?_⟩
  · have hnext := (hx.turn (h', f')).1
    refine ⟨hnext.entry, hnext.stackBase, leads_step h' f' _, fun hp => ?_, fun hp => ?_⟩
    · have hbounds := step_of_interior hp
      rw [hbase] at hbounds
      exact hbounds
    · exact step_eq_of_complete hp h' f'
  · have hle := hx.taken_le
    rw [hx.limit, htaken] at hle
    exact hle
  · have hlow := hx.base_lt
    have hhigh : _ ≤ c.bp.toNat := hx.cursor_add_taken_le
    rw [hbase, htaken] at hlow
    rw [htaken] at hhigh
    omega
  · have hone : (entered e c s.callerLimit.toNat).last = 1 := rfl
    omega

/-- Two callers of `threeCalls` are taken, and then the program has exited. -/
theorem answers_bounded_threeCalls :
    let w := entered ⟨0x1010, 0x8000, 0x8010⟩ ⟨0x500, 0x40c0, 0x4000, 0x40e0⟩ 4096
    let asks := [(threeCalls.host, HostFrame.full 1 ⟨0x500, 0x40e0, 0x40c0⟩),
      (threeCalls.host, .full 1 ⟨0x580, 0x40a0, 0x4080⟩),
      (threeCalls.resume.value.host, .full 1 ⟨0x600, 0x4060, 0x4040⟩),
      (threeCalls.host, .full 1 ⟨0x1010, 0x8000, 0x8010⟩)]
    (begin threeCalls.host (.full 1 ⟨0x1010, 0x8000, 0x8010⟩) .standard).outcome.value
        = .ok (w, ⟨⟨0x40e0, 0x500, none⟩, ⟨0x500, 0x40e0, 0x40c0⟩⟩)
      ∧ (play turn w asks).2.countP GoesOn = 2
      ∧ (play turn w asks).2.countP (fun a => a.2.isSome) = 3
      ∧ 2 ≤ Settings.standard.callerLimit.toNat
      ∧ 2 ≤ (0x40c0 : Word).toNat - (0x4000 : Word).toNat - 1
      ∧ 3 ≤ 2 + 1 := by
  intro w asks
  have hb : (begin threeCalls.host (.full 1 ⟨0x1010, 0x8000, 0x8010⟩) .standard).outcome.value
      = .ok (w, ⟨⟨0x40e0, 0x500, none⟩, ⟨0x500, 0x40e0, 0x40c0⟩⟩) := rfl
  have hsteps : (play turn w asks).2.countP GoesOn = 2 := by decide +kernel
  have hsome : (play turn w asks).2.countP (fun a => a.2.isSome) = 3 := by decide +kernel
  obtain ⟨c, -, -, hbase, hbp, -, hlimit, hroom, hlast⟩ := answers_bounded hb asks
  rw [hsteps] at hlimit hroom hlast
  rw [← hbase, ← hbp] at hroom
  rw [hsome] at hlast
  exact ⟨hb, hsteps, hsome, hlimit, hroom, hlast⟩

end Walk

end MixedStack
