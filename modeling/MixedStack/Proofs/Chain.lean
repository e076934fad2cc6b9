import Mathlib.Tactic.SplitIfs
import MixedStack.Proofs.Threads

/-!
# The chain of calls in memory

The interpreted activations of a thread are a chain in memory: below the frame pointer of each lies
the record of its call, and the record names the caller (`activations`). A walk hands the host from
one activation to the next and from the last one back to the registers it began with, whatever
ended the chain (`Unwinder.answer_of_chain`).

What carries the induction is that the walk's cursor is the frame pointer of the activation the host
asks about, and that the callers the walk may still take are those the chain has left
(`Walk.ahead`).
-/

namespace MixedStack

/-- The record below a frame pointer, if it decodes and its caller lies between the base and the
frame pointer. -/
def recordBelow? (h : Host) (base bp : Word) : Option CallRecord :=
  if bp = base then none
  else (CallRecord.readBelow h bp).outcome.value.toOption.filter fun r =>
    base < r.callerBp ∧ r.callerBp < bp

/-- The registers of the caller that the record below a frame pointer names. -/
def CallRecord.callerAt (r : CallRecord) (bp : Word) : Registers :=
  ⟨r.callerIp, callerSp bp, r.callerBp⟩

/-- The activations from one outward, at most `n` of them callers. -/
def activations (h : Host) (base : Word) : (n : Nat) → Registers → List Registers
  | 0, a => [a]
  | n + 1, a =>
    match recordBelow? h base a.rbp with
    | none => [a]
    | some r => a :: activations h base n (r.callerAt a.rbp)

/-- Which frame an activation is. -/
def Registers.activationId (a : Registers) : FrameId := ⟨a.rsp, a.rip, some a.rbp⟩

/-- The answers that lead a host along activations, and from the last one to the registers `e`. -/
def handOver (e : Registers) : List Registers → List Unwound
  | [] => []
  | [a] => [⟨a.activationId, e⟩]
  | a :: b :: as => ⟨a.activationId, b⟩ :: handOver e (b :: as)

namespace ContextView

/-- The innermost activation. -/
def activation (c : ContextView) : Registers := ⟨c.ip, c.stackTop, c.bp⟩

/-- The answer that leads from the dispatch loop to the innermost activation. -/
def boundary (c : ContextView) : Unwound := ⟨⟨c.stackTop, c.ip, none⟩, c.activation⟩

end ContextView

theorem recordBelow?_eq_some {h : Host} {base bp : Word} {r : CallRecord} :
    recordBelow? h base bp = some r
      ↔ bp ≠ base ∧ (CallRecord.readBelow h bp).outcome.value = .ok r
        ∧ base < r.callerBp ∧ r.callerBp < bp := by
  unfold recordBelow?
  by_cases hb : bp = base
  · simp [hb]
  · rw [if_neg hb, Option.filter_eq_some_iff, decide_eq_true_eq]
    rcases (CallRecord.readBelow h bp).outcome.value with fault | r' <;>
      simp [Except.toOption, hb]

theorem handOver_cons (e a b : Registers) (as : List Registers) :
    handOver e (a :: b :: as) = ⟨a.activationId, b⟩ :: handOver e (b :: as) := rfl

theorem getElem?_handOver (e : Registers) (as : List Registers) (i : Nat) :
    (handOver e as)[i]? = as[i]?.map fun a => ⟨a.activationId, as[i + 1]?.getD e⟩ := by
  induction as generalizing i with
  | nil => rfl
  | cons a as ih =>
    rcases as with _ | ⟨b, as⟩
    · cases i <;> rfl
    · rw [handOver_cons]
      cases i with
      | zero => rfl
      | succ i => simpa only [List.getElem?_cons_succ] using ih i

theorem activations_eq_cons (h : Host) (base : Word) (n : Nat) (a : Registers) :
    ∃ as, activations h base n a = a :: as := by
  cases n with
  | zero => exact ⟨[], rfl⟩
  | succ n =>
    unfold activations
    split
    · exact ⟨[], rfl⟩
    · exact ⟨_, rfl⟩

theorem handOver_cons_activations (e a b : Registers) (h : Host) (base : Word) (n : Nat) :
    handOver e (a :: activations h base n b)
      = ⟨a.activationId, b⟩ :: handOver e (activations h base n b) := by
  obtain ⟨as, has⟩ := activations_eq_cons h base n b
  rw [has, handOver_cons]

namespace Walk

variable {h : Host} {w : Walk} {r : CallRecord}

/-- A walk as it begins in a context, from these registers. -/
def entered (e : Registers) (c : ContextView) (limit : Nat) : Walk where
  phase := .boundary
  entry := e
  stackBase := c.stackBase
  cursor := c.bp
  frames := Table.empty.insert c.stackTop c.bp
  taken := 0
  limit := limit

theorem begin_known (h : Host) (thread : ThreadId) (e : Registers) (s : Settings) :
    (begin h ⟨thread, e.known⟩ s).outcome.value
      = (ContextView.read h s.contextSymbol s.layout).outcome.value.map fun c =>
          (entered e c s.callerLimit.toNat, c.boundary) := by
  simp only [begin, Attempt.value_outcome_bind]
  rfl

/-- The first frame inside the dispatch loop begins a walk. -/
theorem follow_inside {s : Settings} {inside : Word → Bool} {thread : ThreadId} {e : Registers}
    {c : ContextView} (hin : inside e.rip = true)
    (hc : (ContextView.read h s.contextSymbol s.layout).outcome.value = .ok c) :
    follow h s inside ⟨thread, e.known⟩ none
      = (some (entered e c s.callerLimit.toNat), some c.boundary) := by
  have hany : (e.known.rip).any inside = true := hin
  simp only [follow, hany, if_true, begin_known, hc, Except.map]

/-- The record that a walk goes on with. -/
def next? (h : Host) (w : Walk) : Option CallRecord :=
  if w.taken < w.limit then recordBelow? h w.stackBase w.cursor else none

theorem caller_value (h : Host) (w : Walk) :
    (w.caller h).outcome.value =
      if w.limit ≤ w.taken then .error (.corruptChain w.cursor w.cursor)
      else if w.cursor = w.stackBase then .ok .native
      else (CallRecord.readBelow h w.cursor).outcome.value.bind fun r =>
        if r.callerBp = w.stackBase then .ok .native
        else if r.callerBp < w.stackBase ∨ w.cursor ≤ r.callerBp then
          .error (.corruptChain w.cursor r.callerBp)
        else .ok (.interpreted r) := by
  unfold caller
  split
  · rfl
  split
  · rfl
  rw [Attempt.value_outcome_bind]
  congr 1
  funext r
  split
  · rfl
  split <;> rfl

theorem next?_eq_some :
    w.next? h = some r ↔ w.taken < w.limit ∧ recordBelow? h w.stackBase w.cursor = some r := by
  unfold next?
  split_ifs with hlt <;> simp [hlt]

theorem caller_of_some (hr : w.next? h = some r) :
    (w.caller h).outcome.value = .ok (.interpreted r) := by
  obtain ⟨hlt, hrec⟩ := next?_eq_some.1 hr
  obtain ⟨hb, hread, hlo, hhi⟩ := recordBelow?_eq_some.1 hrec
  have hne : r.callerBp ≠ w.stackBase := fun heq => UInt64.lt_irrefl _ (heq ▸ hlo)
  have hin : ¬ (r.callerBp < w.stackBase ∨ w.cursor ≤ r.callerBp) := by
    rintro (hlt' | hle)
    · exact UInt64.lt_asymm hlo hlt'
    · exact UInt64.not_lt.2 hle hhi
  rw [caller_value, if_neg (Nat.not_le.2 hlt), if_neg hb, hread]
  show (if r.callerBp = w.stackBase then _ else _) = _
  rw [if_neg hne, if_neg hin]

theorem caller_of_none (hn : w.next? h = none) (r : CallRecord) :
    (w.caller h).outcome.value ≠ .ok (.interpreted r) := by
  intro hc
  rw [caller_value] at hc
  split_ifs at hc with hlt hb
  · simp only [Except.ok.injEq, reduceCtorEq] at hc
  unfold next? recordBelow? at hn
  rw [if_pos (Nat.not_le.1 hlt), if_neg hb] at hn
  rcases hv : (CallRecord.readBelow h w.cursor).outcome.value with fault | r' <;>
    rw [hv] at hc hn
  · cases hc
  · change (if r'.callerBp = w.stackBase then _ else _) = _ at hc
    split_ifs at hc with hbase hout
    · simp only [Except.ok.injEq, reduceCtorEq] at hc
    have hcond := Option.filter_eq_none_iff.1 hn r' rfl
    rw [not_or, UInt64.not_lt, UInt64.not_le] at hout
    exact hcond (decide_eq_true
      ⟨UInt64.lt_of_le_of_ne hout.1 fun heq => hbase heq.symm, hout.2⟩)

theorem stepAt_of_some (id : FrameId) (hr : w.next? h = some r) :
    (w.stepAt h id).value = (w.advance r, ⟨id, r.callerAt w.cursor⟩) := by
  unfold stepAt
  rw [Traced.value_bind, caller_of_some hr]
  rfl

theorem stepAt_of_none (id : FrameId) (hn : w.next? h = none) :
    (w.stepAt h id).value = (w.finish, ⟨id, w.entry⟩) := by
  unfold stepAt
  rw [Traced.value_bind]
  rcases hc : (w.caller h).outcome.value with fault | _ | r
  · rfl
  · rfl
  · exact absurd hc (caller_of_none hn r)

/-- The activations that a walk still has to answer, the host being at `a`. -/
def ahead (h : Host) (w : Walk) (a : Registers) : List Registers :=
  activations h w.stackBase (w.limit - w.taken) a

theorem ahead_of_some {a : Registers} (ha : a.rbp = w.cursor) (hr : w.next? h = some r) :
    w.ahead h a = a :: (w.advance r).ahead h (r.callerAt w.cursor) := by
  obtain ⟨hlt, hrec⟩ := next?_eq_some.1 hr
  obtain ⟨n, hn⟩ : ∃ n, w.limit - w.taken = n + 1 := ⟨w.limit - w.taken - 1, by omega⟩
  have hleft : (w.advance r).limit - (w.advance r).taken = n := by
    simp only [advance]
    omega
  simp only [ahead, hn, hleft, activations, ha, hrec]
  rfl

theorem ahead_of_none {a : Registers} (ha : a.rbp = w.cursor) (hn : w.next? h = none) :
    w.ahead h a = [a] := by
  unfold next? at hn
  unfold ahead
  rcases hl : w.limit - w.taken with _ | n
  · rfl
  · rw [if_pos (by omega)] at hn
    simp only [activations, ha, hn]

section Step

variable {thread : ThreadId} {a : Registers} (hp : w.phase ≠ .complete) (ha : a.rbp = w.cursor)
include hp ha

theorem step_of_some (hr : w.next? h = some r) :
    (w.step h ⟨thread, a.known⟩).value
      = (w.advance r, some ⟨a.activationId, r.callerAt w.cursor⟩) := by
  unfold step
  rw [if_neg hp]
  simp only [Registers.known, Traced.value_bind, Traced.value_pure,
    stepAt_of_some _ hr, Registers.activationId, ha]

theorem step_of_none (hn : w.next? h = none) :
    (w.step h ⟨thread, a.known⟩).value = (w.finish, some ⟨a.activationId, w.entry⟩) := by
  unfold step
  rw [if_neg hp]
  simp only [Registers.known, Traced.value_bind, Traced.value_pure,
    stepAt_of_none _ hn, Registers.activationId, ha]

end Step

/-- A complete walk answers none, and does nothing for it. -/
theorem step_eq_of_complete (hp : w.phase = .complete) (h : Host) (f : HostFrame) :
    w.step h f = ⟨(w, none), []⟩ := by
  unfold step
  rw [if_pos hp]
  rfl

theorem step_of_complete (hp : w.phase = .complete) (f : HostFrame) :
    (w.step h f).value = (w, none) := by
  rw [step_eq_of_complete hp]

end Walk

/-- A program that is halted in the dispatch loop, three calls above the base of the managed
stack. -/
def threeCalls : Replay where
  symbols := [⟨Settings.standard.loopSymbol, 0x1000, 0x100⟩,
    ⟨Settings.standard.contextSymbol, 0x2000, 0⟩]
  memory := [⟨0x2000, [0x3000]⟩, ⟨0x3000, [0x500, 0x40c0, 0x4000, 0x40e0]⟩,
    ⟨0x4020, [0xfff9000000000001, 0xfffa000000000700, 0xfffa000000004000, 0xfff9000000000000]⟩,
    ⟨0x4060, [0xfff9000000000002, 0xfffa000000000600, 0xfffa000000004040, 0xfff9000000000000]⟩,
    ⟨0x40a0, [0xfff9000000000003, 0xfffa000000000580, 0xfffa000000004080, 0xfff9000000000000]⟩]
  stops := [⟨[⟨1, ⟨0x1010, 0x8000, 0x8010⟩⟩], []⟩]
  passed := 0
  generation := 0

namespace Unwinder

/-- What a host is answered that asks about a frame and then, each time, about the caller it was
answered; where it was answered none, it asks about the next frame of its own. This is the answer
`i` questions later. -/
def answer (h : Host) (thread : ThreadId) :
    (i : Nat) → (own : Nat → KnownRegisters) → KnownRegisters → Unwinder → Option Unwound
  | 0, _, k, u => (u.unwind h ⟨thread, k⟩).value.2
  | i + 1, own, k, u =>
    match (u.unwind h ⟨thread, k⟩).value with
    | (u, some unwound) => answer h thread i (fun j => own (j + 1)) unwound.caller.known u
    | (u, none) => answer h thread i (fun j => own (j + 1)) (own 0) u

variable {h : Host} {thread : ThreadId} {u : Unwinder} {w : Walk}

theorem unwind_of_walk (hw : u.walk? thread = some w) (k : KnownRegisters) :
    (u.unwind h ⟨thread, k⟩).value
      = ({ u with walks := u.walks.insert thread (w.step h ⟨thread, k⟩).value.1 },
          (w.step h ⟨thread, k⟩).value.2) := by
  rw [unwind_value, hw]

theorem walk?_insert_self (u : Unwinder) (w : Walk) (thread : ThreadId) :
    walk? { u with walks := u.walks.insert thread w } thread = some w := by
  rw [walk?_insert, if_pos rfl]

theorem answer_of_complete (i : Nat) :
    ∀ {own : Nat → KnownRegisters} {k : KnownRegisters} {u : Unwinder} {w : Walk},
      u.walk? thread = some w → w.phase = .complete → answer h thread i own k u = none := by
  induction i with
  | zero =>
    intro own k u w hw hp
    simp only [answer, unwind_of_walk hw, Walk.step_of_complete hp]
  | succ i ih =>
    intro own k u w hw hp
    simp only [answer, unwind_of_walk hw, Walk.step_of_complete hp]
    exact ih (walk?_insert_self u w thread) hp

/-- From an activation on, a walk answers the activations ahead, and none after the last. -/
theorem answer_of_walk (i : Nat) :
    ∀ {own : Nat → KnownRegisters} {a : Registers} {u : Unwinder} {w : Walk},
      u.walk? thread = some w → w.phase ≠ .complete → a.rbp = w.cursor →
        answer h thread i own a.known u = (handOver w.entry (w.ahead h a))[i]? := by
  induction i with
  | zero =>
    intro own a u w hw hp ha
    simp only [answer]
    rcases hr : w.next? h with _ | r
    · rw [unwind_of_walk hw, Walk.step_of_none hp ha hr, Walk.ahead_of_none ha hr]
      rfl
    · rw [unwind_of_walk hw, Walk.step_of_some hp ha hr, Walk.ahead_of_some ha hr, Walk.ahead,
        handOver_cons_activations]
      rfl
  | succ i ih =>
    intro own a u w hw hp ha
    simp only [answer]
    rcases hr : w.next? h with _ | r
    · rw [unwind_of_walk hw, Walk.step_of_none hp ha hr, Walk.ahead_of_none ha hr]
      exact answer_of_complete i (walk?_insert_self u w.finish thread) rfl
    · rw [unwind_of_walk hw, Walk.step_of_some hp ha hr, Walk.ahead_of_some ha hr, Walk.ahead,
        handOver_cons_activations, List.getElem?_cons_succ]
      -- The caller's frame pointer is the new cursor, so the host asks about the next activation.
      exact ih (walk?_insert_self u (w.advance r) thread) (by simp [Walk.advance]) rfl

section Context

variable {p : Replay} {s : Settings} {e : Registers} {c : ContextView} (hu : u.Serves p s)
  (hfree : u.walk? thread = none) (hin : p.inBlockOf s.loopSymbol e.rip = true)
  (hc : (ContextView.read p.host s.contextSymbol s.layout).outcome.value = .ok c)
include hu hfree hin hc

theorem unwind_of_context :
    (u.unwind p.host ⟨thread, e.known⟩).value.2 = some c.boundary
      ∧ (u.unwind p.host ⟨thread, e.known⟩).value.1.walk? thread
        = some (Walk.entered e c s.callerLimit.toNat) := by
  obtain ⟨-, hans, hwalk⟩ := hu.unwind ⟨thread, e.known⟩
  rw [hfree, Walk.follow_inside hin hc] at hans hwalk
  exact ⟨hans, (hwalk thread).trans (if_pos rfl)⟩

/-- Asked first about the dispatch loop, an unwinder answers the boundary, and hands over along the
chain in memory from then on. -/
theorem answer_of_context (own : Nat → KnownRegisters) (i : Nat) :
    answer p.host thread i own e.known u =
      (c.boundary :: handOver e
        (activations p.host c.stackBase s.callerLimit.toNat c.activation))[i]? := by
  obtain ⟨hans, hwalk⟩ := unwind_of_context hu hfree hin hc
  rcases hv : (u.unwind p.host ⟨thread, e.known⟩).value with ⟨u', x⟩
  rw [hv] at hans hwalk
  obtain rfl : x = some c.boundary := hans
  cases i with
  | zero => simp only [answer, hv, List.getElem?_cons_zero]
  | succ i =>
    simp only [answer, hv, List.getElem?_cons_succ]
    exact answer_of_walk i hwalk (by simp [Walk.entered]) rfl

end Context

/-- Asked about the dispatch loop of a thread without a walk, and then always about the caller it
answered last, an unwinder answers the innermost activation, then for each activation the next one
of the chain in memory, for the last one the registers it was first asked about, and none from then
on. -/
theorem answer_of_chain {p : Replay} {s : Settings} {u : Unwinder} (hu : Reaches s p u)
    (thread : ThreadId) (e : Registers) (c : ContextView) (hfree : u.walk? thread = none)
    (hin : p.inBlockOf s.loopSymbol e.rip = true)
    (hc : (ContextView.read p.host s.contextSymbol s.layout).outcome.value = .ok c)
    (own : Nat → KnownRegisters) :
    let as := activations p.host c.stackBase s.callerLimit.toNat c.activation
    answer p.host thread 0 own e.known u
        = some ⟨⟨c.stackTop, c.ip, none⟩, ⟨c.ip, c.stackTop, c.bp⟩⟩
      ∧ ∀ i, answer p.host thread (i + 1) own e.known u
        = as[i]?.map fun a => ⟨⟨a.rsp, a.rip, some a.rbp⟩, as[i + 1]?.getD e⟩ := by
  refine ⟨answer_of_context hu.serves hfree hin hc own 0, fun i => ?_⟩
  rw [answer_of_context hu.serves hfree hin hc own (i + 1), List.getElem?_cons_succ,
    getElem?_handOver]
  rfl

theorem answer_of_chain_threeCalls :
    Reaches .standard threeCalls (new .standard)
      ∧ (new .standard).walk? 1 = none
      ∧ threeCalls.inBlockOf Settings.standard.loopSymbol 0x1010 = true
      ∧ (ContextView.read threeCalls.host Settings.standard.contextSymbol
          Settings.standard.layout).outcome.value = .ok ⟨0x500, 0x40c0, 0x4000, 0x40e0⟩
      ∧ answer threeCalls.host 1 3 (fun _ => ⟨none, none, none⟩)
          (Registers.known ⟨0x1010, 0x8000, 0x8010⟩) (new .standard)
        = some ⟨⟨0x4060, 0x600, some 0x4040⟩, ⟨0x1010, 0x8000, 0x8010⟩⟩ := by
  have hin : threeCalls.inBlockOf Settings.standard.loopSymbol 0x1010 = true := by decide +kernel
  refine ⟨.new threeCalls, rfl, hin, rfl, ?_⟩
  rw [(answer_of_chain (.new threeCalls) 1 ⟨0x1010, 0x8000, 0x8010⟩
    ⟨0x500, 0x40c0, 0x4000, 0x40e0⟩ rfl hin rfl fun _ => ⟨none, none, none⟩).2 2]
  decide +kernel

end Unwinder

end MixedStack
