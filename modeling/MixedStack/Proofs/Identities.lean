import Mathlib.Data.List.TakeWhile
import MixedStack.Proofs.Splice

/-!
# Frames of a backtrace are told apart

A debugger goes by the identities of frames, and a frame that comes up twice would make it stop or go
round in circles. In a backtrace of one thread native frames are told apart by their stack pointers,
which rise from the inside out, also across the interpreted frames, and those by their frame
pointers, which fall (`Outward`). Only the boundary may look like a native frame, one that the
execution context happens to name (`Backtrace.frames_distinct`).
-/

namespace MixedStack

/-- Callers have their stacks further up, as far as the frame pointers go. -/
theorem nativeFrames_rise (h : Host) (r : Registers) :
    (nativeFrames h r).Pairwise (fun a b => a.rsp < b.rsp)
      ∧ ∀ n ∈ nativeFrames h r, r.rsp ≤ n.rsp := by
  fun_induction nativeFrames h r with
  | case1 => simp
  | case2 => simp
  | case3 r hz caller hc hlt ih =>
    have hlow : r.rsp < caller.rsp := Backtrace.rsp_lt_of_nativeCaller hc
    have hall : ∀ n ∈ nativeFrames h caller, r.rsp < n.rsp :=
      fun n hn => UInt64.lt_of_lt_of_le hlow (ih.2 n hn)
    refine ⟨List.pairwise_cons.2 ⟨hall, ih.1⟩, fun n hn => ?_⟩
    rcases List.mem_cons.1 hn with rfl | hn
    · exact UInt64.le_refl _
    · exact UInt64.le_of_lt (hall n hn)

/-- Callers have their frames further down the managed stack. -/
theorem activations_fall (h : Host) (base : Word) : ∀ (n : Nat) (a : Registers),
    (activations h base n a).Pairwise (fun a b => b.rbp < a.rbp)
      ∧ ∀ b ∈ activations h base n a, b.rbp ≤ a.rbp
  | 0, a => by simp [activations]
  | n + 1, a => by
    rcases hr : recordBelow? h base a.rbp with _ | r
    · simp [activations, hr]
    obtain ⟨-, -, -, hlt⟩ := recordBelow?_eq_some.1 hr
    obtain ⟨hfall, hle⟩ := activations_fall h base n (r.callerAt a.rbp)
    have hall : ∀ b ∈ activations h base n (r.callerAt a.rbp), b.rbp < a.rbp :=
      fun b hb => UInt64.lt_of_le_of_lt (hle b hb) hlt
    simp only [activations, hr]
    refine ⟨List.pairwise_cons.2 ⟨hall, hfall⟩, fun b hb => ?_⟩
    rcases List.mem_cons.1 hb with rfl | hb
    · exact UInt64.le_refl _
    · exact UInt64.le_of_lt (hall b hb)

/-- What a frame is told apart by lies further out: the stack pointer of a native frame, or the frame
pointer of an activation. -/
def Outward (x y : Registers × FrameId) : Prop :=
  match x.2.special, y.2.special with
  | none, none => x.1.rsp < y.1.rsp
  | some c, some d => d < c
  | _, _ => True

/-- An activation with its identity. -/
def Registers.activation (a : Registers) : Registers × FrameId := (a, a.activationId)

section Layers

variable {inner as outer : List Registers}

/-- Activations between native frames, the boundary left out. -/
def layers (inner as outer : List Registers) : List (Registers × FrameId) :=
  inner.map Registers.native ++ (as.map Registers.activation ++ outer.map Registers.native)

theorem layers_outward (hn : (inner ++ outer).Pairwise fun a b => a.rsp < b.rsp)
    (ha : as.Pairwise fun a b => b.rbp < a.rbp) : (layers inner as outer).Pairwise Outward := by
  obtain ⟨hinner, houter, hacross⟩ := List.pairwise_append.1 hn
  refine List.pairwise_append.2 ⟨List.pairwise_map.2 hinner, ?_, ?_⟩
  · refine List.pairwise_append.2 ⟨List.pairwise_map.2 ha, List.pairwise_map.2 houter, ?_⟩
    simp only [List.mem_map]
    rintro _ ⟨a, -, rfl⟩ _ ⟨n, -, rfl⟩
    trivial
  · simp only [List.mem_append, List.mem_map]
    rintro _ ⟨n, hn, rfl⟩ _ (⟨a, -, rfl⟩ | ⟨m, hm, rfl⟩)
    · trivial
    · exact hacross n hn m hm

theorem layers_own {x : Registers × FrameId} (hx : x ∈ layers inner as outer)
    (hs : x.2.special = none) : x.2 = x.1.nativeId := by
  simp only [layers, List.mem_append, List.mem_map] at hx
  rcases hx with ⟨n, -, rfl⟩ | ⟨a, -, rfl⟩ | ⟨n, -, rfl⟩
  · rfl
  · cases hs
  · rfl

theorem interpreted_sublist (as : List Registers) (after : List (Registers × FrameId)) :
    (interpreted as after).Sublist (as.map Registers.activation ++ after) := by
  unfold interpreted
  refine List.Sublist.append ((List.takeWhile_sublist _).map _) ?_
  split
  · exact List.Sublist.refl _
  · exact List.nil_sublist _

/-- Either no native frame lies in the dispatch loop, or the first that does is where the activations
are put in. -/
theorem spliced_cases (inside : Word → Bool) (id : FrameId) (as ns : List Registers) :
    ((∀ n ∈ ns, inside n.rip = false) ∧ spliced inside id as ns = ns.map Registers.native)
      ∨ ∃ inner e outer, ns = inner ++ e :: outer ∧ (∀ n ∈ inner, inside n.rip = false)
        ∧ inside e.rip = true
        ∧ spliced inside id as ns = inner.map Registers.native
          ++ (e, id) :: interpreted as ((e :: outer).map Registers.native) := by
  have hsplit := List.takeWhile_append_dropWhile (p := fun n => !inside n.rip) (l := ns)
  have hhead := List.head_dropWhile_not (fun n => !inside n.rip) (l := ns)
  rcases hd : ns.dropWhile fun n => !inside n.rip with _ | ⟨e, outer⟩
  · have hout := List.dropWhile_eq_nil_iff.1 hd
    exact .inl ⟨fun n hn => by simpa using hout n hn, by simp only [spliced, hd]⟩
  · rw [hd] at hsplit
    have he : inside e.rip = true := by simpa [hd] using hhead
    refine .inr ⟨_, e, outer, hsplit.symm, fun n hn => ?_, he, by simp only [spliced, hd]⟩
    simpa using List.mem_takeWhile_imp hn

end Layers

/-- The registers and the identity that a frame shows. -/
def Frame.visit (f : Frame) : Registers × FrameId := (⟨f.pc, f.sp, f.fp⟩, f.id)

namespace Backtrace

variable (p : Replay)

theorem map_visit_numbered : ∀ (vs : List (Registers × FrameId)) (level : Nat),
    (numbered p level vs).map Frame.visit = vs
  | [], _ => rfl
  | (r, id) :: vs, level => by
    rw [numbered_cons, List.map_cons, map_visit_numbered vs (level + 1)]
    rfl

theorem map_level_numbered : ∀ (vs : List (Registers × FrameId)) (level : Nat),
    (numbered p level vs).map Frame.level = List.range' level vs.length
  | [], _ => rfl
  | (r, id) :: vs, level => by
    rw [numbered_cons, List.map_cons, map_level_numbered vs (level + 1)]
    rfl

theorem numbered_append (xs ys : List (Registers × FrameId)) (level : Nat) :
    numbered p level (xs ++ ys) = numbered p level xs ++ numbered p (level + xs.length) ys := by
  simp only [numbered, List.zipIdx_append, List.map_append]

theorem numbered_take : ∀ (vs : List (Registers × FrameId)) (n level : Nat),
    numbered p level (vs.take n) = (numbered p level vs).take n
  | [], n, _ => by simp [numbered]
  | _ :: _, 0, _ => rfl
  | (r, id) :: vs, n + 1, level => by
    rw [List.take_succ_cons, numbered_cons, numbered_cons, List.take_succ_cons,
      numbered_take vs n (level + 1)]

variable {p}

theorem visit_mem {f : Frame} {vs : List (Registers × FrameId)} {level : Nat}
    (hf : f ∈ numbered p level vs) : f.visit ∈ vs := by
  rw [← map_visit_numbered p vs level]
  exact List.mem_map_of_mem hf

theorem level_mem {f : Frame} {vs : List (Registers × FrameId)} {level : Nat}
    (hf : f ∈ numbered p level vs) : level ≤ f.level ∧ f.level < level + vs.length := by
  have hl : f.level ∈ (numbered p level vs).map Frame.level := List.mem_map_of_mem hf
  rwa [map_level_numbered, List.mem_range'_1] at hl

/-- Where a backtrace shows the boundary: at the first frame in the dispatch loop, if the execution
context can be read. -/
def boundaryLevel? (p : Replay) (s : Settings) (fs : List Frame) : Option Nat :=
  match (ContextView.read p.host s.contextSymbol s.layout).outcome.value with
  | .ok _ => fs.findIdx? fun f => p.inBlockOf s.loopSymbol f.pc
  | .error _ => none

/-- Frames with the boundary at level `b`. All others are told apart by what lies further out. -/
structure Apart (p : Replay) (s : Settings) (b : Option Nat) (fs : List Frame) : Prop where
  outward : fs.Pairwise fun f g =>
    b ≠ some f.level → b ≠ some g.level → Outward f.visit g.visit
  own : ∀ f ∈ fs, b ≠ some f.level → f.id.special = none → f.id = ⟨f.sp, f.pc, none⟩
  boundary : ∀ f ∈ fs, b = some f.level →
    ∃ c, (ContextView.read p.host s.contextSymbol s.layout).outcome.value = .ok c
      ∧ f.id = ⟨c.stackTop, c.ip, none⟩

variable {s : Settings}

theorem Apart.sublist {b : Option Nat} {fs gs : List Frame} (h : Apart p s b gs)
    (hs : fs.Sublist gs) : Apart p s b fs :=
  ⟨h.outward.sublist hs, fun f hf => h.own f (hs.subset hf),
    fun f hf => h.boundary f (hs.subset hf)⟩

theorem Apart.congr {b b' : Option Nat} {fs : List Frame} (h : Apart p s b fs)
    (hb : ∀ f ∈ fs, b' = some f.level ↔ b = some f.level) : Apart p s b' fs := by
  refine ⟨?_, fun f hf hne => h.own f hf (mt (hb f hf).2 hne),
    fun f hf heq => h.boundary f hf ((hb f hf).1 heq)⟩
  refine h.outward.imp_of_mem fun hf hg hfg hne hne' => ?_
  exact hfg (mt (hb _ hf).2 hne) (mt (hb _ hg).2 hne')

theorem apart_native {ns : List Registers} (hn : ns.Pairwise fun a b => a.rsp < b.rsp) :
    Apart p s none (numbered p 0 (ns.map Registers.native)) := by
  have hlayers : layers ns [] [] = ns.map Registers.native := by simp [layers]
  have hout : (layers ns [] []).Pairwise Outward := layers_outward (by simpa using hn) .nil
  rw [hlayers, ← map_visit_numbered p (ns.map Registers.native) 0, List.pairwise_map] at hout
  refine ⟨hout.imp fun hfg _ _ => hfg, fun f hf _ hs => ?_, nofun⟩
  exact layers_own (hlayers ▸ visit_mem hf) hs

/-- The frame that shows the boundary, put between layers of frames, leaves those apart. -/
theorem apart_boundary {inner as outer : List Registers} {rest : List (Registers × FrameId)}
    (hn : (inner ++ outer).Pairwise fun a b => a.rsp < b.rsp)
    (ha : as.Pairwise fun a b => b.rbp < a.rbp)
    (hrest : rest.Sublist (as.map Registers.activation ++ outer.map Registers.native))
    {c : ContextView}
    (hc : (ContextView.read p.host s.contextSymbol s.layout).outcome.value = .ok c)
    (e : Registers) :
    Apart p s (some inner.length)
      (numbered p 0 (inner.map Registers.native ++ (e, c.boundary.id) :: rest)) := by
  have hsub : (inner.map Registers.native ++ rest).Sublist (layers inner as outer) :=
    List.Sublist.append (List.Sublist.refl _) hrest
  rw [numbered_append, numbered_cons, List.length_map, Nat.zero_add]
  have hlow : ∀ f ∈ numbered p 0 (inner.map Registers.native), f.level < inner.length := by
    intro f hf
    have := (level_mem hf).2
    rwa [List.length_map, Nat.zero_add] at this
  have hhigh : ∀ f ∈ numbered p (inner.length + 1) rest, inner.length < f.level :=
    fun f hf => (level_mem hf).1
  have hout : (numbered p 0 (inner.map Registers.native)
      ++ numbered p (inner.length + 1) rest).Pairwise fun f g => Outward f.visit g.visit := by
    rw [← List.pairwise_map, List.map_append, map_visit_numbered, map_visit_numbered]
    exact (layers_outward hn ha).sublist hsub
  obtain ⟨hinner, houter, hacross⟩ := List.pairwise_append.1 hout
  refine ⟨?_, fun f hf hne hs => ?_, fun f hf heq => ⟨c, hc, ?_⟩⟩
  · refine List.pairwise_append.2 ⟨hinner.imp fun h _ _ => h, ?_, ?_⟩
    · exact List.pairwise_cons.2 ⟨fun g _ hne => absurd rfl hne, houter.imp fun h _ _ => h⟩
    · intro f hf g hg hne hne'
      rcases List.mem_cons.1 hg with rfl | hg
      · exact absurd rfl hne'
      · exact hacross f hf g hg
  · have hmem : f.visit ∈ inner.map Registers.native ++ rest := by
      rcases List.mem_append.1 hf with hf | hf
      · exact List.mem_append_left _ (visit_mem hf)
      rcases List.mem_cons.1 hf with rfl | hf
      · exact absurd rfl hne
      · exact List.mem_append_right _ (visit_mem hf)
    exact layers_own (hsub.subset hmem) hs
  · rw [Option.some.injEq] at heq
    rcases List.mem_append.1 hf with hf | hf
    · have := hlow f hf
      omega
    rcases List.mem_cons.1 hf with rfl | hf
    · rfl
    · have := hhigh f hf
      omega

theorem boundaryLevel?_of_error {fault : Fault} (fs : List Frame)
    (hc : (ContextView.read p.host s.contextSymbol s.layout).outcome.value = .error fault) :
    boundaryLevel? p s fs = none := by
  simp only [boundaryLevel?, hc]

theorem boundaryLevel?_of_ok {c : ContextView} (fs : List Frame)
    (hc : (ContextView.read p.host s.contextSymbol s.layout).outcome.value = .ok c) :
    boundaryLevel? p s fs = fs.findIdx? fun f => p.inBlockOf s.loopSymbol f.pc := by
  simp only [boundaryLevel?, hc]

theorem boundaryLevel?_take (fs : List Frame) (n : Nat) :
    boundaryLevel? p s (fs.take n)
      = (boundaryLevel? p s fs).bind (Option.guard fun level => level < n) := by
  rcases hc : (ContextView.read p.host s.contextSymbol s.layout).outcome.value with fault | c
  · rw [boundaryLevel?_of_error _ hc, boundaryLevel?_of_error _ hc, Option.bind_none]
  · rw [boundaryLevel?_of_ok _ hc, boundaryLevel?_of_ok _ hc, List.findIdx?_take]

theorem findIdx?_native {inside : Word → Bool} {ns : List Registers}
    (hout : ∀ n ∈ ns, inside n.rip = false) :
    (numbered p 0 (ns.map Registers.native)).findIdx? (fun f => inside f.pc) = none := by
  rw [List.findIdx?_eq_none_iff]
  intro f hf
  obtain ⟨n, hn, heq⟩ := List.mem_map.1 (visit_mem hf)
  have hpc : f.pc = n.rip := congrArg (fun x => x.1.rip) heq.symm
  rw [hpc]
  exact hout n hn

theorem findIdx?_boundary {inside : Word → Bool} {inner : List Registers} {e : Registers}
    (hout : ∀ n ∈ inner, inside n.rip = false) (he : inside e.rip = true) (id : FrameId)
    (rest : List (Registers × FrameId)) :
    (numbered p 0 (inner.map Registers.native ++ (e, id) :: rest)).findIdx?
      (fun f => inside f.pc) = some inner.length := by
  rw [numbered_append, List.findIdx?_append, findIdx?_native hout, numbered_cons,
    List.findIdx?_cons, if_pos he]
  simp [numbered]

/-- Were it not for the limit of a backtrace, its frames would be told apart. -/
theorem apart_whole (p : Replay) (s : Settings) (r : Registers) :
    Apart p s (boundaryLevel? p s (numbered p 0 (whole p s r))) (numbered p 0 (whole p s r)) := by
  obtain ⟨hrise, -⟩ := nativeFrames_rise p.host r
  unfold whole
  rcases hc : (ContextView.read p.host s.contextSymbol s.layout).outcome.value with fault | c
  · rw [boundaryLevel?_of_error _ hc]
    exact apart_native hrise
  · rw [boundaryLevel?_of_ok _ hc]
    obtain ⟨hfall, -⟩ := activations_fall p.host c.stackBase s.callerLimit.toNat c.activation
    rcases spliced_cases (p.inBlockOf s.loopSymbol) c.boundary.id
        (activations p.host c.stackBase s.callerLimit.toNat c.activation) (nativeFrames p.host r)
      with ⟨hout, heq⟩ | ⟨inner, e, outer, hns, hout, he, heq⟩
    · simp only [heq, findIdx?_native hout]
      exact apart_native hrise
    · rw [hns] at hrise
      simp only [heq, findIdx?_boundary hout he]
      exact apart_boundary hrise hfall (interpreted_sublist _ _) hc e

theorem apart_take {vs : List (Registers × FrameId)}
    (h : Apart p s (boundaryLevel? p s (numbered p 0 vs)) (numbered p 0 vs)) (n : Nat) :
    Apart p s (boundaryLevel? p s (numbered p 0 (vs.take n))) (numbered p 0 (vs.take n)) := by
  have hsub : (numbered p 0 (vs.take n)).Sublist (numbered p 0 vs) := by
    rw [numbered_take]
    exact List.take_sublist n _
  -- the limit may cut the boundary off, but then no frame behind it is left either
  refine (h.sublist hsub).congr fun f hf => ?_
  have hlevel : f.level < n := by
    have := (level_mem hf).2
    rw [List.length_take] at this
    omega
  rw [numbered_take, boundaryLevel?_take, Option.bind_eq_some_iff]
  simp only [Option.guard_eq_some_iff, decide_eq_true_eq]
  constructor
  · rintro ⟨level, hb, rfl, -⟩
    exact hb
  · exact fun hb => ⟨f.level, hb, rfl, hlevel⟩

/-- The first frame shows the boundary, and the second is a native frame that stands where the
execution context does. -/
def LooksAlike (p : Replay) (s : Settings) (b : Option Nat) (f g : Frame) : Prop :=
  b = some f.level ∧ b ≠ some g.level
    ∧ ∃ c, (ContextView.read p.host s.contextSymbol s.layout).outcome.value = .ok c
      ∧ f.id = ⟨c.stackTop, c.ip, none⟩ ∧ g.id = ⟨c.stackTop, c.ip, none⟩
      ∧ g.sp = c.stackTop ∧ g.pc = c.ip

theorem Apart.looksAlike {b : Option Nat} {fs : List Frame} (h : Apart p s b fs) {f g : Frame}
    (hf : f ∈ fs) (hg : g ∈ fs) (hb : b = some f.level) (hne : b ≠ some g.level)
    (hid : f.id = g.id) : LooksAlike p s b f g := by
  obtain ⟨c, hc, hfid⟩ := h.boundary f hf hb
  have hgid : g.id = ⟨c.stackTop, c.ip, none⟩ := hid.symm.trans hfid
  have hown := h.own g hg hne (by rw [hgid])
  rw [hgid, FrameId.mk.injEq] at hown
  exact ⟨hb, hne, c, hc, hfid, hgid, hown.1.symm, hown.2.1.symm⟩

theorem Apart.ids_ne {b : Option Nat} {fs : List Frame} (h : Apart p s b fs) {f g : Frame}
    (hf : f ∈ fs) (hg : g ∈ fs) (hnf : b ≠ some f.level) (hng : b ≠ some g.level)
    (hfg : Outward f.visit g.visit) : f.id ≠ g.id := by
  intro hid
  unfold Outward Frame.visit at hfg
  rw [← hid] at hfg
  rcases hs : f.id.special with _ | c
  · have hfown := h.own f hf hnf hs
    have hgown := h.own g hg hng (hid ▸ hs)
    rw [hfown, hgown, FrameId.mk.injEq] at hid
    rw [hs, hid.1] at hfg
    exact UInt64.lt_irrefl _ hfg
  · rw [hs] at hfg
    exact UInt64.lt_irrefl _ hfg

theorem Apart.alike {b : Option Nat} {fs : List Frame} (h : Apart p s b fs)
    (hlevels : fs.Pairwise fun f g => f.level < g.level) :
    fs.Pairwise fun f g => f.id = g.id → LooksAlike p s b f g ∨ LooksAlike p s b g f := by
  refine (hlevels.and h.outward).imp_of_mem fun {f g} hf hg hfg hid => ?_
  by_cases hbf : b = some f.level
  · have hbg : b ≠ some g.level := by
      rw [hbf]
      simp only [ne_eq, Option.some.injEq]
      omega
    exact .inl (h.looksAlike hf hg hbf hbg hid)
  by_cases hbg : b = some g.level
  · exact .inr (h.looksAlike hg hf hbg hbf hid.symm)
  · exact absurd hid (h.ids_ne hf hg hbf hbg (hfg.2 hbf hbg))

theorem Apart.stacks_rise {b : Option Nat} {fs : List Frame} (h : Apart p s b fs) :
    (fs.filter fun f => f.id.special = none ∧ b ≠ some f.level).Pairwise
      (fun f g => f.sp < g.sp) := by
  rw [List.pairwise_filter]
  refine h.outward.imp fun {f g} hfg hf hg => ?_
  simp only [decide_eq_true_eq] at hf hg
  have hout := hfg hf.2 hg.2
  unfold Outward Frame.visit at hout
  rw [hf.1, hg.1] at hout
  exact hout

/-- In a backtrace by a new unwinder, frames at different levels have different identities, but for
the boundary, which may look like one native frame. Interpreted frames look like no other frame, and
the stack pointers of native frames rise from the inside out. -/
theorem frames_distinct {p : Replay} {s : Settings} {thread : ThreadId} {fs : List Frame}
    (hfs : (frames p thread (.new s)).value.2 = some fs) :
    let b := boundaryLevel? p s fs
    fs.map Frame.level = List.range fs.length
      ∧ (∀ f ∈ fs, b = some f.level →
        ∃ c, (ContextView.read p.host s.contextSymbol s.layout).outcome.value = .ok c
          ∧ f.id = ⟨c.stackTop, c.ip, none⟩)
      ∧ fs.Pairwise (fun f g => f.id = g.id → LooksAlike p s b f g ∨ LooksAlike p s b g f)
      ∧ fs.Pairwise (fun f g =>
        f.id.special.isSome ∨ g.id.special.isSome → f.id ≠ g.id)
      ∧ (fs.filter fun f => f.id.special = none ∧ b ≠ some f.level).Pairwise
        (fun f g => f.sp < g.sp) := by
  intro b
  obtain ⟨-, hf, -⟩ := frames_visited thread (Unwinder.serves_new p s) rfl
  rw [hf, map_visited? p s thread (numbered p 0), Option.map_eq_some_iff] at hfs
  obtain ⟨state, -, rfl⟩ := hfs
  set vs := (whole p s state.registers).take limit
  have hapart : Apart p s b (numbered p 0 vs) := apart_take (apart_whole p s state.registers) limit
  have hlevels : (numbered p 0 vs).map Frame.level = List.range (numbered p 0 vs).length := by
    rw [map_level_numbered, List.range_eq_range', ← map_visit_numbered p vs 0, List.length_map,
      map_visit_numbered]
  have hrise : (numbered p 0 vs).Pairwise fun f g => f.level < g.level := by
    rw [← List.pairwise_map, hlevels]
    exact List.pairwise_lt_range
  have halike := hapart.alike hrise
  refine ⟨hlevels, hapart.boundary, halike, halike.imp fun {f g} h hs hid => ?_,
    hapart.stacks_rise⟩
  -- the boundary and what it looks like both go without the mark of an interpreted frame
  rcases h hid with ⟨-, -, c, -, hf, hg, -⟩ | ⟨-, -, c, -, hg, hf, -⟩ <;>
    simp [hf, hg] at hs

/-- A program that is halted in the dispatch loop, and whose execution context names the frame of the
loop itself. -/
def echo : Replay where
  symbols := [⟨Settings.standard.loopSymbol, 0x1000, 0x100⟩,
    ⟨Settings.standard.contextSymbol, 0x2000, 0⟩]
  memory := [⟨0x2000, [0x3000]⟩, ⟨0x3000, [0x1010, 0x4040, 0x4000, 0x8000]⟩,
    ⟨0x4020, [0xfff9000000000001, 0xfffa000000000700, 0xfffa000000004000, 0xfff9000000000000]⟩,
    ⟨0x8010, [0x8030, 0x555]⟩]
  stops := [⟨[⟨1, ⟨0x1010, 0x8000, 0x8010⟩⟩], []⟩]
  passed := 0
  generation := 0

/-- The boundary, the one activation, the frame of the loop, and its caller. -/
def echoFrames : List Frame :=
  let loop := some Settings.standard.loopSymbol
  [⟨0, 0x1010, 0x8000, 0x8010, ⟨0x8000, 0x1010, none⟩, loop⟩,
    ⟨1, 0x1010, 0x8000, 0x4040, ⟨0x8000, 0x1010, some 0x4040⟩, loop⟩,
    ⟨2, 0x1010, 0x8000, 0x8010, ⟨0x8000, 0x1010, none⟩, loop⟩,
    ⟨3, 0x555, 0x8020, 0x8030, ⟨0x8020, 0x555, none⟩, none⟩]

theorem frames_distinct_echo :
    (frames echo 1 (.new .standard)).value.2 = some echoFrames
      ∧ ¬ (echoFrames.map Frame.id).Nodup
      ∧ boundaryLevel? echo .standard echoFrames = some 0
      ∧ echoFrames.Pairwise (fun f g => f.id = g.id →
        LooksAlike echo .standard (some 0) f g ∨ LooksAlike echo .standard (some 0) g f) := by
  have hfs : (frames echo 1 (.new .standard)).value.2 = some echoFrames := by decide +kernel
  have hb : boundaryLevel? echo .standard echoFrames = some 0 := by decide +kernel
  have hdistinct := (frames_distinct hfs).2.2.1
  rw [hb] at hdistinct
  exact ⟨hfs, by decide, hb, hdistinct⟩

end Backtrace

end MixedStack
