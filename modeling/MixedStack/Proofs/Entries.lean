import Mathlib.Data.List.Nodup
import MixedStack.Proofs.Footprint

/-!
# What the table of a walk holds

A walk enters the boundary into its table when it begins, and every interpreted caller when it
answers it, each by the end of its stack. Those of the callers lie ever lower, so none of them
replaces another, and the table is short of one entry only if the boundary shares its place with one
of them (`Walk.frames_of_answers`).
-/

namespace MixedStack

namespace Table

variable {α : Type}

/-- Puts entries in, one after the other. -/
def insertAll (t : Table α) (es : List (Word × α)) : Table α :=
  es.foldl (fun t e => t.insert e.1 e.2) t

theorem insertAll_cons (t : Table α) (e : Word × α) (es : List (Word × α)) :
    t.insertAll (e :: es) = (t.insert e.1 e.2).insertAll es := rfl

/-- Of entries for the same word, the last one put in is there. -/
theorem get?_insertAll (es : List (Word × α)) (key : Word) :
    ∀ t : Table α, (t.insertAll es).get? key = (es.reverse.lookup key).or (t.get? key) := by
  induction es with
  | nil => exact fun t => rfl
  | cons e es ih =>
    intro t
    obtain ⟨k, a⟩ := e
    rw [insertAll_cons, ih, get?_insert, List.reverse_cons, List.lookup_append, Option.or_assoc,
      List.lookup_cons]
    congr 1
    by_cases hk : key = k
    · simp [hk]
    · simp [hk, beq_eq_false_iff_ne.2 hk]

/-- Entries for different words take one place each, but for those whose word is there already. -/
theorem size_insertAll {es : List (Word × α)} (hes : es.Pairwise fun e e' => e'.1 ≠ e.1) :
    ∀ t : Table α,
      (t.insertAll es).size + es.countP (fun e => t.contains e.1) = t.size + es.length := by
  induction es with
  | nil => exact fun t => rfl
  | cons e es ih =>
    intro t
    obtain ⟨hne, hes⟩ := List.pairwise_cons.1 hes
    have hcount : es.countP (fun e' => (t.insert e.1 e.2).contains e'.1)
        = es.countP fun e' => t.contains e'.1 :=
      List.countP_congr fun e' he' => by
        rw [contains_insert]
        simp [hne e' he']
    have hrest := ih hes (t.insert e.1 e.2)
    rw [hcount, size_insert] at hrest
    rw [insertAll_cons, List.countP_cons, List.length_cons]
    split at hrest
    · rw [if_pos ‹_›]
      omega
    · rw [if_neg ‹_›]
      omega

end Table

namespace Walk

/-- The registers of the interpreted callers that a walk answers, question by question. -/
def callers (w : Walk) (asks : List (Host × HostFrame)) : List Registers :=
  (w.readings asks).filterMap Reading.caller

/-- The entry for a frame that was answered as a caller. -/
def tableEntry (r : Registers) : Word × Word := (r.rsp, r.rbp)

variable {w : Walk}

theorem callers_cons (w : Walk) (ask : Host × HostFrame) (asks : List (Host × HostFrame)) :
    w.callers (ask :: asks) = (w.reading ask).caller.toList ++ (w.turn ask).1.callers asks := by
  rw [callers, readings_cons, List.filterMap_cons]
  cases (w.reading ask).caller <;> rfl

theorem frames_turn (w : Walk) (ask : Host × HostFrame) :
    (w.turn ask).1.frames
      = w.frames.insertAll ((w.reading ask).caller.toList.map tableEntry) := by
  obtain ⟨h, f⟩ := ask
  unfold turn reading
  rcases w.step_cases h f with ⟨hp, hs⟩ | ⟨-, answer, hs⟩ | ⟨-, id, r, -, hs⟩ <;> simp only [hs]
  · rw [hp]
    rfl
  · rfl
  · rfl

theorem frames_play (asks : List (Host × HostFrame)) : ∀ w : Walk,
    (play turn w asks).1.frames = w.frames.insertAll ((w.callers asks).map tableEntry) := by
  induction asks with
  | nil => exact fun w => rfl
  | cons ask asks ih =>
    intro w
    rw [callers_cons, List.map_append, Table.insertAll, List.foldl_append]
    exact (ih _).trans (congrArg (Table.insertAll · _) (frames_turn w ask))

theorem bounds_of_caller {asks : List (Host × HostFrame)} {r : Reading} {c : Registers}
    (hr : r ∈ w.readings asks) (hc : r.caller = some c) :
    w.phase ≠ .complete ∧ r.cursor ≤ w.cursor ∧ c.rbp < r.cursor
      ∧ c.rsp.toNat + 32 = r.cursor.toNat := by
  obtain ⟨hfits, hnext⟩ := readings_fit asks w r hr
  have htouched : r.touched ≠ [] := by
    rw [hfits.record c hc]
    exact List.cons_ne_nil _ _
  obtain ⟨-, hlt, hsp⟩ := hfits.caller c hc
  exact ⟨(hnext htouched).1, (hnext htouched).2, hlt, hsp⟩

theorem readings_fall : ∀ (asks : List (Host × HostFrame)) (w : Walk),
    (w.readings asks).Pairwise fun r r' =>
      ∀ c, r.caller = some c → ∀ c', r'.caller = some c' → c'.rsp < c.rsp
  | [], _ => .nil
  | ask :: asks, w => by
    rw [readings_cons]
    refine List.pairwise_cons.2 ⟨fun r' hr' c hc c' hc' => ?_, readings_fall asks _⟩
    obtain ⟨hp, hle, -, hsp'⟩ := bounds_of_caller hr' hc'
    obtain ⟨-, hdone | ⟨-, c'', hc'', hcursor⟩⟩ := next_reading w ask
    · exact absurd hdone hp
    obtain rfl : c = c'' := Option.some.inj (hc.symm.trans hc'')
    have hmem : w.reading ask ∈ w.readings (ask :: asks) := List.mem_cons_self
    obtain ⟨-, -, hlt, hsp⟩ := bounds_of_caller hmem hc
    rw [hcursor, UInt64.le_iff_toNat_le] at hle
    rw [UInt64.lt_iff_toNat_lt] at hlt ⊢
    omega

theorem callers_fall (w : Walk) (asks : List (Host × HostFrame)) :
    (w.callers asks).Pairwise fun c c' => c'.rsp < c.rsp :=
  List.pairwise_filterMap.2 (readings_fall asks w)

theorem rsp_eq_of_caller {asks : List (Host × HostFrame)} {r : Reading} {c : Registers}
    (hr : r ∈ w.readings asks) (hc : r.caller = some c) : c.rsp = r.cursor - 32 := by
  obtain ⟨-, -, -, hsp⟩ := bounds_of_caller hr hc
  have hroom : (32 : Word) ≤ r.cursor :=
    UInt64.le_iff_toNat_le.2 (hsp ▸ Nat.le_add_left 32 c.rsp.toNat)
  apply UInt64.toNat_inj.1
  rw [UInt64.toNat_sub_of_le _ _ hroom, ← hsp]
  exact (Nat.add_sub_cancel _ 32).symm

theorem mem_map_rsp_callers {asks : List (Host × HostFrame)} {sp : Word} :
    sp ∈ (w.callers asks).map Registers.rsp
      ↔ ∃ r ∈ w.readings asks, r.caller.isSome ∧ sp = r.cursor - 32 := by
  simp only [callers, List.mem_map, List.mem_filterMap]
  constructor
  · rintro ⟨c, ⟨r, hr, hc⟩, rfl⟩
    exact ⟨r, hr, by rw [hc]; rfl, rsp_eq_of_caller hr hc⟩
  · rintro ⟨r, hr, hsome, rfl⟩
    obtain ⟨c, hc⟩ := Option.isSome_iff_exists.1 hsome
    exact ⟨c, ⟨r, hr, hc⟩, rsp_eq_of_caller hr hc⟩

/-- Where a walk began with one entry, only a caller whose stack ends there takes no place of its
own. -/
theorem size_play {sp bp : Word} (hw : w.frames = Table.empty.insert sp bp)
    (asks : List (Host × HostFrame)) :
    (play turn w asks).1.frames.size + ((w.callers asks).map Registers.rsp).count sp
      = 1 + (w.callers asks).length := by
  have hfall : ((w.callers asks).map tableEntry).Pairwise fun e e' => e'.1 ≠ e.1 :=
    List.pairwise_map.2 ((callers_fall w asks).imp UInt64.ne_of_lt)
  have hcount : ((w.callers asks).map tableEntry).countP (fun e => w.frames.contains e.1)
      = ((w.callers asks).map Registers.rsp).count sp := by
    rw [List.countP_map, List.count, List.countP_map]
    refine List.countP_congr fun c _ => ?_
    show w.frames.contains c.rsp ↔ (c.rsp == sp) = true
    rw [hw, Table.contains_insert, beq_iff_eq]
    simp [Table.contains]
  have hsize := Table.size_insertAll hfall w.frames
  rw [hcount, List.length_map, ← frames_play, hw] at hsize
  exact hsize

/-- The table of a walk is made of the boundary and the interpreted callers that the walk answered,
in this order, and of nothing else. The ends of the callers' stacks fall. So the table has an entry
for each of them and for the boundary, but for one if the context's stack ends where that of a caller
does, which it does not if it reaches up to the context's frame pointer. -/
theorem frames_of_answers {h : Host} {f : HostFrame} {s : Settings} {w : Walk} {unwound : Unwound}
    (hb : (begin h f s).outcome.value = .ok (w, unwound)) (asks : List (Host × HostFrame)) :
    ∃ c, (ContextView.read h s.contextSymbol s.layout).outcome.value = .ok c
      ∧ unwound.caller = ⟨c.ip, c.stackTop, c.bp⟩ ∧ w.cursor = c.bp
      ∧ let table := (play turn w asks).1.frames
        let callers := w.callers asks
        let made := (unwound.caller :: callers).map tableEntry
        let shared := ∃ r ∈ w.readings asks, r.caller.isSome ∧ c.stackTop = r.cursor - 32
        table = Table.empty.insertAll made
          ∧ (∀ sp, table.get? sp = made.reverse.lookup sp)
          ∧ table.entries.Pairwise (fun e e' => e.1 < e'.1)
          ∧ callers.Pairwise (fun r r' => r'.rsp < r.rsp)
          ∧ (¬ shared → table.size = 1 + callers.length)
          ∧ (shared → table.size + 1 = 1 + callers.length)
          ∧ (c.bp ≤ c.stackTop → ¬ shared) := by
  obtain ⟨e, c, -, hc, rfl, rfl⟩ := begin_eq_ok.1 hb
  refine ⟨c, hc, rfl, rfl, ?_⟩
  generalize hw : entered e c s.callerLimit.toNat = w
  have hbegun : w.frames = Table.empty.insert c.stackTop c.bp := hw ▸ rfl
  have hcursor : w.cursor = c.bp := hw ▸ rfl
  have htable : (play turn w asks).1.frames
      = Table.empty.insertAll ((c.boundary.caller :: w.callers asks).map tableEntry) := by
    rw [frames_play, hbegun]
    rfl
  have hfall := callers_fall w asks
  have hnodup : ((w.callers asks).map Registers.rsp).Nodup :=
    List.pairwise_map.2 (hfall.imp fun h => (UInt64.ne_of_lt h).symm)
  have hsize := size_play hbegun asks
  refine ⟨htable, fun sp => ?_, Table.sorted _, hfall, fun hno => ?_, fun hshared => ?_, ?_⟩
  · rw [htable, Table.get?_insertAll, Table.get?_empty, Option.or_none]
  · rw [List.count_eq_zero_of_not_mem (mt mem_map_rsp_callers.1 hno)] at hsize
    exact hsize
  · rw [List.count_eq_one_of_mem hnodup (mem_map_rsp_callers.2 hshared)] at hsize
    exact hsize
  · rintro htop ⟨r, hr, hsome, heq⟩
    obtain ⟨k, hk⟩ := Option.isSome_iff_exists.1 hsome
    obtain ⟨-, hle, -, hsp⟩ := bounds_of_caller hr hk
    rw [rsp_eq_of_caller hr hk, ← heq] at hsp
    rw [hcursor, UInt64.le_iff_toNat_le] at hle
    rw [UInt64.le_iff_toNat_le] at htop
    omega

/-- The program of `threeCalls`, but that the execution context says the stack of the innermost
activation ends where that of its caller does. -/
def lowTop : Replay :=
  { threeCalls with
    memory := ⟨0x3000, [0x500, 0x40c0, 0x4000, 0x40a0]⟩ :: threeCalls.memory }

/-- Two callers are answered, and the first of them takes the place of the boundary. -/
theorem frames_of_answers_lowTop :
    let w := entered ⟨0x1010, 0x8000, 0x8010⟩ ⟨0x500, 0x40c0, 0x4000, 0x40a0⟩ 4096
    let asks := [(lowTop.host, HostFrame.full 1 ⟨0x500, 0x40a0, 0x40c0⟩),
      (lowTop.host, .full 1 ⟨0x580, 0x40a0, 0x4080⟩),
      (lowTop.host, .full 1 ⟨0x600, 0x4060, 0x4040⟩)]
    (begin lowTop.host (.full 1 ⟨0x1010, 0x8000, 0x8010⟩) .standard).outcome.value
        = .ok (w, ⟨⟨0x40a0, 0x500, none⟩, ⟨0x500, 0x40a0, 0x40c0⟩⟩)
      ∧ w.callers asks = [⟨0x580, 0x40a0, 0x4080⟩, ⟨0x600, 0x4060, 0x4040⟩]
      ∧ (play turn w asks).1.frames
        = Table.empty.insertAll [(0x40a0, 0x40c0), (0x40a0, 0x4080), (0x4060, 0x4040)]
      ∧ (play turn w asks).1.frames.get? 0x40a0 = some 0x4080
      ∧ (play turn w asks).1.frames.size = 2 := by
  intro w asks
  have hb : (begin lowTop.host (.full 1 ⟨0x1010, 0x8000, 0x8010⟩) .standard).outcome.value
      = .ok (w, ⟨⟨0x40a0, 0x500, none⟩, ⟨0x500, 0x40a0, 0x40c0⟩⟩) := rfl
  have hcallers : w.callers asks = [⟨0x580, 0x40a0, 0x4080⟩, ⟨0x600, 0x4060, 0x4040⟩] := by
    decide +kernel
  obtain ⟨c, -, hboundary, -, htable, hget, -, -, -, hshared, -⟩ := frames_of_answers hb asks
  rw [hcallers] at htable hget hshared
  have htop : c.stackTop = 0x40a0 := (congrArg Registers.rsp hboundary).symm
  have hsize := hshared ?_
  · exact ⟨hb, hcallers, htable, (hget 0x40a0).trans rfl, Nat.succ.inj hsize⟩
  · rw [htop, ← mem_map_rsp_callers, hcallers]
    exact List.mem_cons_self

end Walk

end MixedStack
