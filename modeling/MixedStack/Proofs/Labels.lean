import MixedStack.Label
import MixedStack.Proofs.Identities

/-!
# Labels of a backtrace

A walk enters a frame into its table when it answers it as a caller, one question before the host
asks about that frame. So whenever the host asks about a frame of an unfinished walk, the frame is in
the table (`Walk.Shows`), and the table forgets none of them. At the end of a backtrace it holds all
interpreted frames that are shown, and these are one run behind the boundary
(`Backtrace.frames_labelled`).
-/

namespace MixedStack

namespace Walk

/-- Whether a walk has made up a frame with this stack pointer. -/
def made (w : Option Walk) (sp : Word) : Bool :=
  (w.map frames).any fun t => t.contains sp

/-- While the walk goes on, the host is at the frame that the walk made up last. -/
def Shows (w : Option Walk) (r : Registers) : Prop :=
  ∀ v, w = some v → v.phase ≠ .complete → r.rbp = v.cursor ∧ v.frames.contains r.rsp = true

theorem shows_none (r : Registers) : Shows none r := by
  intro v hv
  cases hv

theorem shows_of_complete {w : Walk} (hp : w.phase = .complete) (r : Registers) :
    Shows (some w) r := by
  rintro v ⟨⟩ hv
  exact absurd hp hv

theorem shows_entered (e : Registers) (c : ContextView) (limit : Nat) :
    Shows (some (entered e c limit)) c.activation := by
  rintro v ⟨⟩ -
  exact ⟨rfl, (Table.contains_insert ..).2 (.inl rfl)⟩

theorem shows_advance (w : Walk) (r : CallRecord) :
    Shows (some (w.advance r)) (r.callerAt w.cursor) := by
  rintro v ⟨⟩ -
  exact ⟨rfl, (Table.contains_insert ..).2 (.inl rfl)⟩

end Walk

namespace Labelling

variable {α : Type} [Shown α] {l : Labelling} {made : Option FrameTable} {frame : α}

theorem covers_iff :
    l.covers made frame
      ↔ l.enabled ∧ ∃ t, made = some t ∧ t.contains (Shown.view frame).sp := by
  unfold covers
  cases made <;> simp

theorem map_frame_applyAll (l : Labelling) (made : Option FrameTable) (frames : List α) :
    (l.applyAll made frames).map Labelled.frame = frames := by
  rw [applyAll, List.map_map]
  exact List.map_id frames

theorem label_apply_of_covers (hc : l.covers made frame) :
    (l.apply made frame).label = some l.label :=
  if_pos hc

theorem label_apply_of_not_covers (hc : ¬ l.covers made frame) :
    (l.apply made frame).label = none :=
  if_neg hc

end Labelling

namespace Backtrace

section Visits

variable (h : Host) (s : Settings) (inside : Word → Bool) (thread : ThreadId)

/-- Without a walk, a visit is of a native frame, or of the boundary and begins a walk. -/
theorem visit_of_none (r : Registers) :
    visit h s inside thread r none = (none, r.nativeId, (nativeCaller h r).value)
      ∨ ∃ c limit, visit h s inside thread r none
        = (some (Walk.entered r c limit), c.boundary.id, some c.activation) := by
  rcases hin : inside r.rip with _ | _
  · exact .inl (visit_of_outside hin)
  rcases hc : (ContextView.read h s.contextSymbol s.layout).outcome.value with fault | c
  · exact .inl (visit_of_refused hc r)
  · exact .inr ⟨c, _, visit_of_inside hc hin⟩

/-- A visit forgets no frame that was made up. If it is of an interpreted frame, that one was made
up, and so is the one that comes next. -/
theorem visit_made {r : Registers} {w : Option Walk} (hw : Walk.Shows w r) :
    let v := visit h s inside thread r w
    (∀ sp, Walk.made w sp → Walk.made v.1 sp)
      ∧ (v.2.1.special.isSome → Walk.made v.1 r.rsp)
      ∧ ∀ caller, v.2.2 = some caller → Walk.Shows v.1 caller := by
  rcases w with _ | w
  · have hnone : ∀ v sp, Walk.made none sp → Walk.made v sp :=
      fun v sp hsp => absurd hsp Bool.false_ne_true
    rcases visit_of_none h s inside thread r with hv | ⟨c, limit, hv⟩ <;> rw [hv]
    · exact ⟨hnone _, nofun, fun caller _ => Walk.shows_none caller⟩
    · refine ⟨hnone _, nofun, ?_⟩
      rintro _ ⟨⟩
      exact Walk.shows_entered r c limit
  by_cases hp : w.phase = .complete
  · rw [visit_of_complete hp]
    exact ⟨fun sp hsp => hsp, nofun, fun caller _ => Walk.shows_of_complete hp caller⟩
  obtain ⟨hcursor, hmade⟩ := hw w rfl hp
  rcases hr : w.next? h with _ | record
  · simp only [visit, Walk.follow, Walk.step_of_none hp hcursor hr]
    exact ⟨fun sp hsp => hsp, fun _ => hmade, fun _ _ => Walk.shows_of_complete rfl _⟩
  · have hkept : ∀ sp, w.frames.contains sp → (w.advance record).frames.contains sp :=
      fun sp hsp => (Table.contains_insert ..).2 (.inr hsp)
    simp only [visit, Walk.follow, Walk.step_of_some hp hcursor hr]
    refine ⟨hkept, fun _ => hkept r.rsp hmade, ?_⟩
    rintro _ ⟨⟩
    exact Walk.shows_advance w record

/-- All interpreted frames that are visited are in the table at the end. -/
theorem visits_made (fuel : Nat) : ∀ {r : Registers} {w : Option Walk}, Walk.Shows w r →
    let v := visits h s inside thread fuel r w
    (∀ sp, Walk.made w sp → Walk.made v.1 sp)
      ∧ ∀ x ∈ v.2, x.2.special.isSome → Walk.made v.1 x.1.rsp := by
  induction fuel with
  | zero =>
    intro r w _
    exact ⟨fun sp hsp => hsp, fun x hx => absurd hx List.not_mem_nil⟩
  | succ fuel ih =>
    intro r w hw
    by_cases hz : r.rip = 0
    · simp only [visits, hz, if_true]
      exact ⟨fun sp hsp => hsp, fun x hx => absurd hx List.not_mem_nil⟩
    obtain ⟨hkept, hmade, hnext⟩ := visit_made h s inside thread hw
    simp only [visits, if_neg hz]
    rcases hv : visit h s inside thread r w with ⟨w', id, _ | caller⟩ <;>
      simp only [hv] at hkept hmade hnext ⊢
    · refine ⟨hkept, fun x hx hs => ?_⟩
      obtain rfl := List.mem_singleton.1 hx
      exact hmade hs
    · obtain ⟨hkept', hmade'⟩ := ih (hnext caller rfl)
      refine ⟨fun sp hsp => hkept' sp (hkept sp hsp), fun x hx hs => ?_⟩
      rcases List.mem_cons.1 hx with rfl | hx
      · exact hkept' _ (hmade hs)
      · exact hmade' x hx hs

end Visits

end Backtrace

section Runs

variable {α β : Type} {P Q : α → Prop} {b : Option Nat} {xs : List α}

/-- Those with `P` are one run, right behind place `b`. Without such a place there are none. -/
def RunBehind (P : α → Prop) (b : Option Nat) (xs : List α) : Prop :=
  ∃ len, ∀ i x, xs[i]? = some x → (P x ↔ ∃ n, b = some n ∧ n < i ∧ i ≤ n + len)

theorem runBehind_none (h : ∀ x ∈ xs, ¬ P x) : RunBehind P none xs :=
  ⟨0, fun _ x hx => by simp [h x (List.mem_of_getElem? hx)]⟩

theorem runBehind_append {inner run outer : List α} {e : α} (hinner : ∀ x ∈ inner, ¬ P x)
    (he : ¬ P e) (hrun : ∀ x ∈ run, P x) (houter : ∀ x ∈ outer, ¬ P x) :
    RunBehind P (some inner.length) (inner ++ e :: (run ++ outer)) := by
  refine ⟨run.length, fun i x hx => ?_⟩
  simp only [Option.some.injEq, exists_eq_left']
  rcases Nat.lt_trichotomy i inner.length with hi | rfl | hi
  · rw [List.getElem?_append_left hi] at hx
    have := hinner x (List.mem_of_getElem? hx)
    simp only [this, false_iff]
    omega
  · obtain rfl : e = x := by simpa using hx
    simp [he]
  obtain ⟨j, rfl⟩ : ∃ j, i = inner.length + (j + 1) := ⟨i - inner.length - 1, by omega⟩
  rw [List.getElem?_append_right (by omega), Nat.add_sub_cancel_left, List.getElem?_cons_succ] at hx
  rcases Nat.lt_or_ge j run.length with hj | hj
  · rw [List.getElem?_append_left hj] at hx
    have := hrun x (List.mem_of_getElem? hx)
    simp only [this, true_iff]
    omega
  · rw [List.getElem?_append_right hj] at hx
    have := houter x (List.mem_of_getElem? hx)
    simp only [this, false_iff]
    omega

theorem RunBehind.congr (h : RunBehind P b xs) (hPQ : ∀ x ∈ xs, Q x ↔ P x) :
    RunBehind Q b xs := by
  obtain ⟨len, hlen⟩ := h
  exact ⟨len, fun i x hx => (hPQ x (List.mem_of_getElem? hx)).trans (hlen i x hx)⟩

theorem runBehind_map {f : β → α} {ys : List β} :
    RunBehind P b (ys.map f) ↔ RunBehind (fun y => P (f y)) b ys := by
  refine exists_congr fun len => forall_congr' fun i => ?_
  rw [List.getElem?_map]
  cases ys[i]? <;> simp

theorem RunBehind.take (h : RunBehind P b xs) (m : Nat) :
    RunBehind P (b.bind (Option.guard fun n => n < m)) (xs.take m) := by
  obtain ⟨len, hlen⟩ := h
  refine ⟨len, fun i x hx => ?_⟩
  rw [List.getElem?_take, Option.ite_none_right_eq_some] at hx
  obtain ⟨him, hx⟩ := hx
  rw [hlen i x hx]
  simp only [Option.bind_eq_some_iff, Option.guard_eq_some_iff, decide_eq_true_eq]
  constructor
  · rintro ⟨n, hn, hlt, hle⟩
    exact ⟨n, ⟨n, hn, rfl, by omega⟩, hlt, hle⟩
  · rintro ⟨n, ⟨n', hn, rfl, -⟩, hlt, hle⟩
    exact ⟨n', hn, hlt, hle⟩

end Runs

namespace Backtrace

variable {p : Replay} {s : Settings}

theorem runBehind_whole (p : Replay) (s : Settings) (r : Registers) :
    RunBehind (fun x => x.2.special.isSome) (boundaryLevel? p s (numbered p 0 (whole p s r)))
      (whole p s r) := by
  have hnative : ∀ ns : List Registers, ∀ x ∈ ns.map Registers.native, ¬ x.2.special.isSome := by
    intro ns x hx
    obtain ⟨n, -, rfl⟩ := List.mem_map.1 hx
    exact nofun
  unfold whole
  rcases hc : (ContextView.read p.host s.contextSymbol s.layout).outcome.value with fault | c
  · rw [boundaryLevel?_of_error _ hc]
    exact runBehind_none (hnative _)
  rw [boundaryLevel?_of_ok _ hc]
  rcases spliced_cases (p.inBlockOf s.loopSymbol) c.boundary.id
      (activations p.host c.stackBase s.callerLimit.toNat c.activation) (nativeFrames p.host r)
    with ⟨hout, heq⟩ | ⟨inner, e, outer, -, hout, he, heq⟩
  · simp only [heq, findIdx?_native hout]
    exact runBehind_none (hnative _)
  · simp only [heq, findIdx?_boundary hout he]
    rw [← List.length_map Registers.native]
    refine runBehind_append (hnative inner) nofun (fun x hx => ?_) (fun x hx => ?_)
    · obtain ⟨a, -, rfl⟩ := List.mem_map.1 hx
      rfl
    · split at hx
      · exact hnative _ x hx
      · cases hx

/-- In a backtrace, the interpreted frames are one run behind the boundary. -/
theorem runBehind_numbered (p : Replay) (s : Settings) (r : Registers) (n : Nat) :
    let fs := numbered p 0 ((whole p s r).take n)
    RunBehind (fun f => f.id.special.isSome) (boundaryLevel? p s fs) fs := by
  have hrun : RunBehind (fun x => x.2.special.isSome)
      (boundaryLevel? p s (numbered p 0 (whole p s r)))
      ((numbered p 0 (whole p s r)).map Frame.visit) := by
    rw [map_visit_numbered]
    exact runBehind_whole p s r
  have htake := (runBehind_map.1 hrun).take n
  rwa [← boundaryLevel?_take, ← numbered_take] at htake

/-- The table that a backtrace leaves behind holds all interpreted frames of the backtrace. -/
theorem covers_of_interpreted {thread : ThreadId} {fs : List Frame}
    (hfs : (frames p thread (.new s)).value.2 = some fs) (label : String) {f : Frame} (hf : f ∈ fs)
    (hs : f.id.special.isSome) :
    Labelling.covers ⟨label, true⟩ ((frames p thread (.new s)).value.1.frames? thread) f := by
  obtain ⟨-, hval, hwalk⟩ := frames_visited thread (Unwinder.serves_new p s) rfl
  rw [hval, visited?, Option.map_map, Option.map_eq_some_iff] at hfs
  obtain ⟨state, hstate, rfl⟩ := hfs
  obtain ⟨-, hmade⟩ := visits_made p.host s (p.inBlockOf s.loopSymbol) thread limit
    (Walk.shows_none state.registers)
  have hleft := hwalk thread
  rw [if_pos rfl, visited?, hstate] at hleft
  rw [Unwinder.frames?, hleft]
  exact hmade _ (visit_mem hf) hs

theorem covers_iff_interpreted {thread : ThreadId} {fs : List Frame}
    (hfs : (frames p thread (.new s)).value.2 = some fs)
    (hother : ∀ f ∈ fs, f.id.special = none → ∀ t,
      (frames p thread (.new s)).value.1.frames? thread = some t → t.contains f.sp = false)
    (label : String) {f : Frame} (hf : f ∈ fs) :
    Labelling.covers ⟨label, true⟩ ((frames p thread (.new s)).value.1.frames? thread) f
      ↔ f.id.special.isSome := by
  refine ⟨fun hc => ?_, covers_of_interpreted hfs label hf⟩
  obtain ⟨-, t, ht, hsp⟩ := Labelling.covers_iff.1 hc
  rcases hs : f.id.special with _ | fp
  · exact absurd hsp (Bool.eq_false_iff.1 (hother f hf hs t ht))
  · rfl

/-- In a labelled backtrace by a new unwinder all interpreted frames have their label. Where no other
frame shares its stack pointer with a frame that was made up, no other has one, and those with a
label are one run behind the boundary. Whatever frames are labelled, they stay what they are and in
their order, and are shown as they were but for the label in the place of the function. -/
theorem frames_labelled (p : Replay) (s : Settings) (thread : ThreadId) :
    ((p.thread? thread).isSome → ∃ u fs, (frames p thread (.new s)).value = (u, some fs) ∧
      let made := u.frames? thread
      let shown := Labelling.applyAll ⟨s.frameLabel, true⟩ made fs
      (∀ d ∈ shown, d.frame.id.special.isSome → d.label = some s.frameLabel)
        ∧ ((∀ f ∈ fs, f.id.special = none → ∀ t, made = some t → t.contains f.sp = false) →
          (∀ d ∈ shown,
            d.label = if d.frame.id.special.isSome then some s.frameLabel else none)
          ∧ RunBehind (fun d => d.label.isSome) (boundaryLevel? p s fs) shown))
    ∧ ∀ (α : Type) [Shown α] (l : Labelling) (made : Option FrameTable) (frames : List α),
      let shown := l.applyAll made frames
      shown.map Labelled.frame = frames
        ∧ ∀ d ∈ shown,
          let own := Shown.view d.frame
          (d.label = none ∨ d.label = some l.label)
            ∧ (d.label.isSome ↔ l.enabled ∧ ∃ t, made = some t ∧ t.contains own.sp)
            ∧ (Shown.view d).level = own.level ∧ (Shown.view d).pc = own.pc
            ∧ (Shown.view d).sp = own.sp
            ∧ (Shown.view d).function
              = if d.label.isSome then some l.label else own.function := by
  refine ⟨fun hthread => ?_, fun α _ l made frames => ⟨?_, fun d hd => ?_⟩⟩
  · obtain ⟨state, hstate⟩ := Option.isSome_iff_exists.1 hthread
    obtain ⟨-, hfs, -⟩ := frames_visited thread (Unwinder.serves_new p s) rfl
    rw [map_visited? p s thread (numbered p 0), hstate, Option.map_some] at hfs
    refine ⟨_, _, Prod.ext rfl hfs, fun d hd hs => ?_, fun hother => ⟨fun d hd => ?_, ?_⟩⟩
    · obtain ⟨f, hf, rfl⟩ := List.mem_map.1 hd
      exact Labelling.label_apply_of_covers (covers_of_interpreted hfs s.frameLabel hf hs)
    · obtain ⟨f, hf, rfl⟩ := List.mem_map.1 hd
      exact if_congr (covers_iff_interpreted hfs hother s.frameLabel hf) rfl rfl
    · refine runBehind_map.2 ((runBehind_numbered p s state.registers limit).congr fun f hf => ?_)
      rw [← covers_iff_interpreted hfs hother s.frameLabel hf]
      simp [Labelling.apply]
  · exact l.map_frame_applyAll made frames
  · obtain ⟨f, hf, rfl⟩ := List.mem_map.1 hd
    refine ⟨?_, ?_, rfl, rfl, rfl, ?_⟩
    · by_cases hc : l.covers made f
      · exact .inr (Labelling.label_apply_of_covers hc)
      · exact .inl (Labelling.label_apply_of_not_covers hc)
    · rw [← Labelling.covers_iff]
      simp [Labelling.apply]
    · simp only [Labelling.apply, Shown.view]
      split <;> simp

-- The execution context of `echo` names the stack pointer of the loop's own frame, so that one is
-- labelled wherever it comes up.
example :
    let (u, fs) := (frames echo 1 (.new .standard)).value
    (Labelling.applyAll ⟨"interpreted", true⟩ (u.frames? 1) (fs.getD [])).map
        (fun d => (d.frame.id.special.isSome, d.label))
      = [(false, some "interpreted"), (true, some "interpreted"), (false, some "interpreted"),
        (false, none)] := by
  decide +kernel

end Backtrace

end MixedStack
