import MixedStack.Proofs.Descent

/-!
# Where a walk reads

A step reads slots of the record below the cursor and nothing else. It goes on to any caller between
the base and the cursor, also to one that lies inside that record. From there on records overlap and
may reach below the base. As long as every caller lies outside the record that names it, all of them
are read on the managed stack, each below the one before (`Walk.readings_descend`).
-/

namespace MixedStack

/-- The memory that was read, by address and length. -/
def Traced.touched {α : Type} (x : Traced α) : List (Word × Nat) :=
  x.trail.filterMap fun
    | .read addr len => some (addr, len)
    | _ => none

section Touched

variable {α β : Type} {a : Word × Nat}

namespace Traced

@[simp] theorem touched_pure (v : α) : (pure v : Traced α).touched = [] := rfl

@[simp] theorem touched_note (e : Event) : (note e).touched = [] := rfl

@[simp] theorem touched_readWord (h : Host) (addr : Word) :
    (readWord h addr).touched = [(addr, 8)] := rfl

@[simp] theorem touched_bind (x : Traced α) (f : α → Traced β) :
    (x >>= f).touched = x.touched ++ (f x.value).touched :=
  List.filterMap_append

@[simp] theorem touched_map (f : α → β) (x : Traced α) : (f <$> x).touched = x.touched := by
  rw [← bind_pure_comp, touched_bind, touched_pure, List.append_nil]

end Traced

namespace Attempt

@[simp] theorem touched_pure (v : α) : (pure v : Attempt α).outcome.touched = [] := rfl

@[simp] theorem touched_throw (e : Fault) : (throw e : Attempt α).outcome.touched = [] := rfl

@[simp] theorem touched_settled (x : Except Fault α) : (settled x).outcome.touched = [] := rfl

@[simp] theorem touched_readWord (h : Host) (addr : Word) :
    (readWord h addr).outcome.touched = [(addr, 8)] := rfl

@[simp] theorem touched_map (f : α → β) (x : Attempt α) :
    (f <$> x).outcome.touched = x.outcome.touched := by
  simp only [outcome, ExceptT.run_map, Traced.touched_map]

theorem touched_bind (x : Attempt α) (f : α → Attempt β) :
    (x >>= f).outcome.touched = x.outcome.touched
      ++ x.outcome.value.toOption.elim [] fun v => (f v).outcome.touched := by
  simp only [outcome, ExceptT.run_bind, Traced.touched_bind]
  rcases (ExceptT.run x).value with fault | v <;> rfl

theorem touched_bind_of_ok {x : Attempt α} {v : α} (hx : x.outcome.value = .ok v)
    (f : α → Attempt β) :
    (x >>= f).outcome.touched = x.outcome.touched ++ (f v).outcome.touched := by
  rw [touched_bind, hx]
  rfl

theorem mem_touched_bind {x : Attempt α} {f : α → Attempt β} :
    a ∈ (x >>= f).outcome.touched ↔ a ∈ x.outcome.touched
      ∨ ∃ v, x.outcome.value = .ok v ∧ a ∈ (f v).outcome.touched := by
  rw [touched_bind, List.mem_append]
  rcases x.outcome.value with fault | v <;> simp [Except.toOption]

end Attempt

end Touched

/-- A slot of the record below a frame pointer, by address and length. -/
def IsSlotBelow (bp : Word) (a : Word × Nat) : Prop :=
  a.2 = Slot.size ∧ ∃ n, 1 ≤ n ∧ n ≤ CallRecord.slots
    ∧ a.1.toNat + CallRecord.distance n = bp.toNat

section Slots

variable {h : Host} {a : Word × Nat}

theorem Slot.touched_readTagged (h : Host) (addr : Word) (t : Tag) :
    (readTagged h addr t).outcome.touched = [(addr, size)] := by
  unfold readTagged Slot.read
  rw [Attempt.touched_bind, Attempt.touched_map, Attempt.touched_readWord]
  rcases (Slot.mk <$> Attempt.readWord h addr).outcome.value.toOption with _ | s
  · rfl
  · simp only [Option.elim_some]
    split <;> rfl

theorem CallRecord.touched_readField {bp : Word} {n : Nat} {t : Tag} (hlow : 1 ≤ n)
    (hhigh : n ≤ slots) (ha : a ∈ (readField h bp n t).outcome.touched) : IsSlotBelow bp a := by
  unfold readField at ha
  rw [Attempt.mem_touched_bind, Attempt.touched_settled] at ha
  rcases ha with ha | ⟨addr, haddr, ha⟩
  · cases ha
  rw [Attempt.value_outcome_settled, slotBelow_eq_ok] at haddr
  obtain ⟨hroom, rfl⟩ := haddr
  obtain rfl := List.mem_singleton.1 (Slot.touched_readTagged .. ▸ ha)
  have hsize := toNat_distance hhigh
  refine ⟨rfl, n, hlow, hhigh, ?_⟩
  rw [UInt64.le_iff_toNat_le, hsize] at hroom
  rw [UInt64.toNat_sub_of_le _ _ (UInt64.le_iff_toNat_le.2 (by omega)), hsize]
  omega

/-- The slots of the record below a frame pointer, from the top down. -/
def CallRecord.footprint (bp : Word) : List (Word × Nat) :=
  (List.range' 1 slots).map fun n => (bp - UInt64.ofNat (distance n), Slot.size)

theorem CallRecord.touched_readField_of_ok {bp : Word} {n : Nat} {t : Tag} {p : Word}
    (hp : (readField h bp n t).outcome.value = .ok p) :
    (readField h bp n t).outcome.touched = [(bp - UInt64.ofNat (distance n), Slot.size)] := by
  have haddr : (Attempt.settled (slotBelow bp n)).outcome.value
      = .ok (bp - UInt64.ofNat (distance n)) :=
    slotBelow_eq_ok.2 ⟨(readField_eq_ok.1 hp).1, rfl⟩
  unfold readField
  rw [Attempt.touched_bind_of_ok haddr, Attempt.touched_settled, Slot.touched_readTagged]
  rfl

theorem CallRecord.touched_readBelow {bp : Word} (ha : a ∈ (readBelow h bp).outcome.touched) :
    IsSlotBelow bp a := by
  unfold readBelow at ha
  simp only [Attempt.mem_touched_bind, Attempt.touched_pure, List.not_mem_nil, and_false,
    exists_false, or_false] at ha
  rcases ha with ha | ⟨-, -, ha | ⟨-, -, ha | ⟨-, -, ha⟩⟩⟩
  · exact touched_readField (by decide) (by decide) ha
  · exact touched_readField (by decide) (by decide) ha
  · exact touched_readField (by decide) (by decide) ha
  · exact touched_readField (by decide) (by decide) ha

theorem CallRecord.touched_readBelow_of_ok {bp : Word} {r : CallRecord}
    (hr : (readBelow h bp).outcome.value = .ok r) :
    (readBelow h bp).outcome.touched = footprint bp := by
  obtain ⟨h1, h2, h3, h4⟩ := readBelow_eq_ok.1 hr
  unfold readBelow
  rw [Attempt.touched_bind_of_ok h1, Attempt.touched_bind_of_ok h2, Attempt.touched_bind_of_ok h3,
    Attempt.touched_bind_of_ok h4, touched_readField_of_ok h1, touched_readField_of_ok h2,
    touched_readField_of_ok h3, touched_readField_of_ok h4]
  rfl

end Slots

namespace Walk

variable {h : Host} {a : Word × Nat} {w : Walk}

theorem touched_caller (ha : a ∈ (w.caller h).outcome.touched) :
    w.cursor ≠ w.stackBase ∧ IsSlotBelow w.cursor a := by
  unfold caller at ha
  split at ha
  · cases ha
  split at ha
  · cases ha
  rename_i hbase
  rw [Attempt.mem_touched_bind] at ha
  rcases ha with ha | ⟨r, -, ha⟩
  · exact ⟨hbase, CallRecord.touched_readBelow ha⟩
  · split at ha
    · cases ha
    · split at ha <;> cases ha

theorem touched_caller_of_some {r : CallRecord} (hr : w.next? h = some r) :
    (w.caller h).outcome.touched = CallRecord.footprint w.cursor := by
  obtain ⟨hlt, hrec⟩ := next?_eq_some.1 hr
  obtain ⟨hbase, hread, -⟩ := recordBelow?_eq_some.1 hrec
  rw [caller, if_neg (Nat.not_le.2 hlt), if_neg hbase, Attempt.touched_bind_of_ok hread,
    CallRecord.touched_readBelow_of_ok hread]
  split
  · exact List.append_nil _
  · split <;> exact List.append_nil _

theorem touched_stepAt (h : Host) (id : FrameId) (w : Walk) :
    (w.stepAt h id).touched = (w.caller h).outcome.touched := by
  unfold stepAt
  rw [Traced.touched_bind]
  split <;> exact List.append_nil _

/-- A step reads slots of the record below the cursor, and none at the base. -/
theorem touched_step {f : HostFrame} (ha : a ∈ (w.step h f).touched) :
    w.phase ≠ .complete ∧ w.cursor ≠ w.stackBase ∧ IsSlotBelow w.cursor a := by
  unfold step at ha
  split at ha
  · cases ha
  rename_i hp
  split at ha
  · rw [Traced.touched_bind, touched_stepAt, List.mem_append] at ha
    rcases ha with ha | ha
    · exact ⟨hp, touched_caller ha⟩
    · cases ha
  · cases ha

/-- A step that goes on to a caller reads all of the record. -/
theorem touched_step_of_interior {f : HostFrame} (hp : (w.step h f).value.1.phase = .interior) :
    (w.step h f).touched = CallRecord.footprint w.cursor := by
  unfold step at hp ⊢
  split at hp
  · rename_i hc
    cases hc.symm.trans hp
  rename_i hc
  rw [if_neg hc]
  split at hp
  · rw [Traced.value_bind] at hp
    rcases hr : w.next? h with _ | r
    · rw [stepAt_of_none _ hr] at hp
      cases hp
    · rw [Traced.touched_bind, touched_stepAt, touched_caller_of_some hr]
      exact List.append_nil _
  · cases hp

/-- What a walk was asked for: where it stood, the memory it read, and the registers of the
interpreted caller that it went on to. -/
structure Reading where
  cursor : Word
  touched : List (Word × Nat)
  caller : Option Registers
  deriving DecidableEq, Repr

def reading (w : Walk) (ask : Host × HostFrame) : Reading :=
  let x := w.step ask.1 ask.2
  { cursor := w.cursor
    touched := x.touched
    caller := if x.value.1.phase = .interior then x.value.2.map Unwound.caller else none }

/-- All readings of a walk that is asked one question after the other. -/
def readings (w : Walk) (asks : List (Host × HostFrame)) : List Reading :=
  (play (fun w ask => ((w.step ask.1 ask.2).value.1, [w.reading ask])) w asks).2

theorem readings_cons (w : Walk) (ask : Host × HostFrame) (asks : List (Host × HostFrame)) :
    w.readings (ask :: asks) = w.reading ask :: (w.step ask.1 ask.2).value.1.readings asks := rfl

namespace Reading

/-- The reading is of slots below the cursor. If there is a caller, it is of all of them, and the
caller lies between the base and the cursor. -/
structure Fits (base : Word) (r : Reading) : Prop where
  touched : ∀ a ∈ r.touched, r.cursor ≠ base ∧ IsSlotBelow r.cursor a
  record : ∀ c, r.caller = some c → r.touched = CallRecord.footprint r.cursor
  caller : ∀ c, r.caller = some c →
    base < c.rbp ∧ c.rbp < r.cursor ∧ c.rsp.toNat + 32 = r.cursor.toNat

theorem Fits.touched_bounds {base : Word} {r : Reading} (hr : r.Fits base) {a : Word × Nat}
    (ha : a ∈ r.touched) :
    r.cursor ≠ base ∧ a.2 = 8 ∧ a.1.toNat + 8 ≤ r.cursor.toNat
      ∧ r.cursor.toNat ≤ a.1.toNat + 32 := by
  obtain ⟨hbase, hlen, n, hlow, hhigh, hdistance⟩ := hr.touched a ha
  unfold CallRecord.slots at hhigh
  unfold CallRecord.distance Slot.size at hdistance
  refine ⟨hbase, hlen, ?_, ?_⟩ <;> omega

/-- The caller does not lie inside the record that names it. -/
def Clear (r : Reading) : Prop :=
  ∀ c, r.caller = some c → c.rbp ≤ c.rsp

end Reading

theorem fits_reading (w : Walk) (ask : Host × HostFrame) : (w.reading ask).Fits w.stackBase := by
  obtain ⟨h, f⟩ := ask
  have hgoes : ∀ c, (w.reading (h, f)).caller = some c →
      (w.step h f).value.1.phase = .interior ∧ (w.step h f).value.2.map Unwound.caller = some c :=
    fun c hc => Option.ite_none_right_eq_some.1 hc
  refine ⟨fun a ha => (touched_step ha).2,
    fun c hc => touched_step_of_interior (hgoes c hc).1, fun c hc => ?_⟩
  obtain ⟨hp, hc⟩ := hgoes c hc
  rcases w.step_cases h f with ⟨hdone, hs⟩ | ⟨-, answer, hs⟩ | ⟨-, id, r, hr, hs⟩ <;>
    rw [hs] at hp hc
  · cases hdone.symm.trans hp
  · cases hp
  · obtain rfl : r.callerAt w.cursor = c := by simpa using hc
    obtain ⟨-, hlo, hhi, hroom, -⟩ := bounds_of_next? hr
    exact ⟨hlo, hhi, CallRecord.toNat_callerSp hroom⟩

/-- A walk is complete behind a reading, or stands at the caller. -/
theorem next_reading (w : Walk) (ask : Host × HostFrame) :
    let next := (w.step ask.1 ask.2).value.1
    next.stackBase = w.stackBase
      ∧ (next.phase = .complete
        ∨ w.phase ≠ .complete ∧ ∃ c, (w.reading ask).caller = some c ∧ next.cursor = c.rbp) := by
  obtain ⟨h, f⟩ := ask
  unfold reading
  rcases w.step_cases h f with ⟨hp, hs⟩ | ⟨-, answer, hs⟩ | ⟨hp, id, r, hr, hs⟩ <;>
    simp only [hs]
  · exact ⟨trivial, .inl hp⟩
  · exact ⟨rfl, .inl rfl⟩
  · exact ⟨rfl, .inr ⟨hp, r.callerAt w.cursor, rfl, rfl⟩⟩

/-- Readings fit, and those that touch memory are of an unfinished walk and not above its cursor. -/
theorem readings_fit : ∀ (asks : List (Host × HostFrame)) (w : Walk), ∀ r ∈ w.readings asks,
    r.Fits w.stackBase ∧ (r.touched ≠ [] → w.phase ≠ .complete ∧ r.cursor ≤ w.cursor)
  | [], _ => fun r hr => absurd hr List.not_mem_nil
  | ask :: asks, w => by
    intro r hr
    rw [readings_cons] at hr
    rcases List.mem_cons.1 hr with rfl | hr
    · refine ⟨fits_reading w ask, fun htouched => ?_⟩
      obtain ⟨a, ha⟩ := List.exists_mem_of_ne_nil _ htouched
      exact ⟨(touched_step ha).1, UInt64.le_refl _⟩
    obtain ⟨hfits, hnext⟩ := readings_fit asks _ r hr
    obtain ⟨hbase, hdone | ⟨hp, c, hc, hcursor⟩⟩ := next_reading w ask
    · exact ⟨hbase ▸ hfits, fun htouched => absurd hdone (hnext htouched).1⟩
    · refine ⟨hbase ▸ hfits, fun htouched => ⟨hp, ?_⟩⟩
      have hlt := ((fits_reading w ask).caller c hc).2.1
      exact UInt64.le_of_lt (UInt64.lt_of_le_of_lt (hcursor ▸ (hnext htouched).2) hlt)

/-- Behind a reading whose caller is clear of its record, all that is read lies below that record. -/
theorem readings_drop : ∀ (asks : List (Host × HostFrame)) (w : Walk),
    (w.readings asks).Pairwise fun r r' =>
      r.Clear → r'.touched ≠ [] → r'.cursor.toNat + 32 ≤ r.cursor.toNat
  | [], _ => .nil
  | ask :: asks, w => by
    rw [readings_cons]
    refine List.pairwise_cons.2 ⟨fun r' hr' hclear htouched => ?_, readings_drop asks _⟩
    obtain ⟨hp, hle⟩ := (readings_fit asks _ r' hr').2 htouched
    obtain ⟨-, hdone | ⟨-, c, hc, hcursor⟩⟩ := next_reading w ask
    · exact absurd hdone hp
    · rw [hcursor, UInt64.le_iff_toNat_le] at hle
      have hsp := ((fits_reading w ask).caller c hc).2.2
      have hclear := UInt64.le_iff_toNat_le.1 (hclear c hc)
      omega

/-- Whatever a walk is asked, every step reads words among the four slots below the cursor, so on the
managed stack if that has room for them, and none at the base. To go on to a caller it reads all
four, and the caller lies between the base and the cursor. If it does not lie inside the record that
names it, all of the record lies above the base and above all that is read later. -/
theorem readings_descend (w : Walk) (asks : List (Host × HostFrame)) :
    (∀ r ∈ w.readings asks,
      (∀ a ∈ r.touched, r.cursor ≠ w.stackBase ∧ a.2 = 8
        ∧ a.1.toNat + 8 ≤ r.cursor.toNat ∧ r.cursor.toNat ≤ a.1.toNat + 32
        ∧ (w.stackBase.toNat + 32 ≤ r.cursor.toNat → w.stackBase ≤ a.1))
      ∧ ∀ c, r.caller = some c → w.stackBase < c.rbp ∧ c.rbp < r.cursor
        ∧ c.rsp.toNat + 32 = r.cursor.toNat
        ∧ r.touched = [(r.cursor - 8, 8), (r.cursor - 16, 8), (r.cursor - 24, 8), (r.cursor - 32, 8)]
        ∧ (c.rbp ≤ c.rsp → ∀ a ∈ r.touched, w.stackBase < a.1))
    ∧ (w.readings asks).Pairwise fun r r' => (∀ c, r.caller = some c → c.rbp ≤ c.rsp) →
        ∀ a' ∈ r'.touched, r'.cursor.toNat + 32 ≤ r.cursor.toNat
          ∧ ∀ a ∈ r.touched, a'.1.toNat + 8 ≤ a.1.toNat := by
  have hfits : ∀ r ∈ w.readings asks, r.Fits w.stackBase := fun r hr => (readings_fit asks w r hr).1
  refine ⟨fun r hr => ⟨fun a ha => ?_, fun c hc => ?_⟩, ?_⟩
  · obtain ⟨hbase, hlen, htop, hbottom⟩ := (hfits r hr).touched_bounds ha
    refine ⟨hbase, hlen, htop, hbottom, fun hroom => UInt64.le_iff_toNat_le.2 ?_⟩
    omega
  · obtain ⟨hlo, hhi, hsp⟩ := (hfits r hr).caller c hc
    refine ⟨hlo, hhi, hsp, (hfits r hr).record c hc, fun hclear a ha => UInt64.lt_iff_toNat_lt.2 ?_⟩
    obtain ⟨-, -, -, hbottom⟩ := (hfits r hr).touched_bounds ha
    rw [UInt64.lt_iff_toNat_lt] at hlo
    rw [UInt64.le_iff_toNat_le] at hclear
    omega
  · refine (readings_drop asks w).imp_of_mem fun {r r'} hr hr' hdrop hclear a' ha' => ?_
    have hbelow := hdrop hclear (List.ne_nil_of_mem ha')
    refine ⟨hbelow, fun a ha => ?_⟩
    obtain ⟨-, -, -, hbottom⟩ := (hfits r hr).touched_bounds ha
    obtain ⟨-, -, htop, -⟩ := (hfits r' hr').touched_bounds ha'
    omega

/-- A program that is halted in the dispatch loop, with records on the managed stack that overlap:
the caller of the innermost activation has its frame pointer inside the activation's record. -/
def tangled : Replay where
  symbols := [⟨Settings.standard.loopSymbol, 0x1000, 0x100⟩,
    ⟨Settings.standard.contextSymbol, 0x2000, 0⟩]
  memory := [⟨0x2000, [0x3000]⟩, ⟨0x3000, [0x500, 0x4028, 0x4000, 0x4048]⟩,
    ⟨0x3ff0, [0xfff9000000000002, 0xfffa000000000600, 0xfffa000000004000, 0xfff9000000000001,
      0xfffa000000000700, 0xfffa000000004010, 0xfff9000000000000]⟩]
  stops := [⟨[⟨1, ⟨0x1010, 0x8000, 0x8010⟩⟩], []⟩]
  passed := 0
  generation := 0

/-- The walk through `tangled` goes on to a caller inside the record, decodes a record that overlaps
the one before, and reads below the base. -/
theorem readings_tangled :
    let w := entered ⟨0x1010, 0x8000, 0x8010⟩ ⟨0x500, 0x4028, 0x4000, 0x4048⟩ 4096
    let asks := [(tangled.host, HostFrame.full 1 ⟨0x500, 0x4048, 0x4028⟩),
      (tangled.host, .full 1 ⟨0x700, 0x4008, 0x4010⟩)]
    (begin tangled.host (.full 1 ⟨0x1010, 0x8000, 0x8010⟩) .standard).outcome.value
        = .ok (w, ⟨⟨0x4048, 0x500, none⟩, ⟨0x500, 0x4048, 0x4028⟩⟩)
      ∧ ¬ (∀ r ∈ w.readings asks, ∀ a ∈ r.touched,
        w.stackBase ≤ a.1 ∧ a.1.toNat + 8 ≤ r.cursor.toNat)
      ∧ ¬ (∀ r ∈ w.readings asks, ∀ c, r.caller = some c → c.rbp ≤ c.rsp)
      ∧ ¬ (w.readings asks).Pairwise (fun r r' => ∀ a ∈ r.touched, ∀ a' ∈ r'.touched,
        a'.1.toNat + 8 ≤ a.1.toNat ∨ a.1.toNat + 8 ≤ a'.1.toNat) := by
  intro w asks
  let inner : Reading :=
    ⟨0x4028, [(0x4020, 8), (0x4018, 8), (0x4010, 8), (0x4008, 8)], some ⟨0x700, 0x4008, 0x4010⟩⟩
  let outer : Reading :=
    ⟨0x4010, [(0x4008, 8), (0x4000, 8), (0x3ff8, 8), (0x3ff0, 8)], none⟩
  have hread : w.readings asks = [inner, outer] := by decide +kernel
  rw [hread]
  refine ⟨rfl, fun h => ?_, fun h => ?_, fun h => ?_⟩
  · exact absurd (h outer (by simp) (0x3ff0, 8) (by simp [outer])).1 (by decide)
  · exact absurd (h inner (by simp) _ rfl) (by decide)
  · have hapart := (List.pairwise_cons.1 h).1 outer (by simp)
    exact absurd (hapart (0x4008, 8) (by simp [inner]) (0x4008, 8) (by simp [outer])) (by decide)

end Walk

end MixedStack
