import Mathlib.Data.List.Pairwise
import MixedStack.Proofs.Documents
import MixedStack.Settings.Format

/-!
# Settings that leave fields open

Fields of a record that are kept apart may come in any order (`Record.Independent.members_perm`),
and none comes twice (`Record.Independent.of_members`). So settings are read from an object with any
of their fields, in any order, at both levels, and what is left out has its standard value
(`Settings.fields_completed`).
-/

namespace MixedStack

open Json

namespace Json

theorem Decoded.bind_eq_ok {α β : Type} {x : Decoded α} {f : α → Decoded β} {b : β} :
    (x >>= f) = .ok b ↔ ∃ a, x = .ok a ∧ f a = .ok b := by
  rcases x with problem | a
  · exact ⟨nofun, fun ⟨_, h, _⟩ => nomatch h⟩
  · exact ⟨fun h => ⟨a, rfl, h⟩, fun ⟨a', h, hb⟩ => Except.ok.inj h ▸ hb⟩

section Fields

variable {σ β β' : Type} {f g : Field σ}

/-- A field has a value once one was given to it. -/
def Field.Keeps (f : Field σ) : Prop :=
  ∀ v known known', f.fill v known = .ok known' → f.filled known' = true

/-- What one field is given shows nowhere in the other, so that it does not matter which comes
first. -/
structure Field.Apart (f g : Field σ) : Prop where
  filled : ∀ v known known', f.fill v known = .ok known' → g.filled known' = g.filled known
  filled' : ∀ v known known', g.fill v known = .ok known' → f.filled known' = f.filled known
  swap : ∀ v w known last,
    (f.fill v known >>= g.fill w) = .ok last ↔ (g.fill w known >>= f.fill v) = .ok last

theorem Field.Apart.symm (h : f.Apart g) : g.Apart f :=
  ⟨h.filled', h.filled, fun v w known last => (h.swap w v known last).symm⟩

variable {name name' : String} {read : Value → Decoded β} {read' : Value → Decoded β'}
  {get : σ → Option β} {get' : σ → Option β'} {put : Option β → σ → σ} {put' : Option β' → σ → σ}

theorem Field.fill_kept {v : Value} {known known' : σ} :
    (Field.kept name read get put).fill v known = .ok known'
      ↔ ∃ b, read v = .ok b ∧ put (some b) known = known' := by
  rw [Field.kept, Decoded.bind_eq_ok]
  simp only [pure, Except.pure, Except.ok.injEq]

theorem Field.keeps_kept (h : ∀ b known, get (put b known) = b) :
    (Field.kept name read get put).Keeps := by
  intro v known known' hfill
  obtain ⟨b, -, rfl⟩ := fill_kept.1 hfill
  simp only [kept, h, Option.isSome_some]

theorem Field.apart_kept (h : ∀ b known, get' (put b known) = get' known)
    (h' : ∀ b known, get (put' b known) = get known)
    (hswap : ∀ b b' known, put' b' (put b known) = put b (put' b' known)) :
    (Field.kept name read get put).Apart (Field.kept name' read' get' put') := by
  refine ⟨fun v known known' hfill => ?_, fun v known known' hfill => ?_, fun v w known last => ?_⟩
  · obtain ⟨b, -, rfl⟩ := fill_kept.1 hfill
    simp only [kept, h]
  · obtain ⟨b, -, rfl⟩ := fill_kept.1 hfill
    simp only [kept, h']
  · simp only [Decoded.bind_eq_ok, fill_kept]
    constructor
    · rintro ⟨-, ⟨b, hb, rfl⟩, b', hb', rfl⟩
      exact ⟨_, ⟨b', hb', rfl⟩, b, hb, (hswap _ _ _).symm⟩
    · rintro ⟨-, ⟨b', hb', rfl⟩, b, hb, rfl⟩
      exact ⟨_, ⟨b, hb, rfl⟩, b', hb', hswap _ _ _⟩

end Fields

namespace Record

variable {σ α β : Type} {r : Record σ α} {known last : σ} {ms ms' : List (String × Value)}

structure Independent (r : Record σ α) : Prop where
  keeps : ∀ f ∈ r.fields, f.Keeps
  apart : r.fields.Pairwise Field.Apart

theorem members_cons {m : String × Value} :
    r.members known (m :: ms) = .ok last
      ↔ ∃ f next, (r.fields.find? fun f => f.name = m.1) = some f ∧ f.filled known = false
        ∧ f.fill m.2 known = .ok next ∧ r.members next ms = .ok last := by
  obtain ⟨key, v⟩ := m
  rw [members]
  rcases hfind : r.fields.find? fun f => f.name = key with _ | f
  · simp [hfind]
  · rcases hf : f.filled known with _ | _ <;> simp [hfind, hf, Decoded.bind_eq_ok]

theorem Independent.apart_of_ne (hr : r.Independent) {f g : Field σ} (hf : f ∈ r.fields)
    (hg : g ∈ r.fields) (hne : f ≠ g) : f.Apart g :=
  haveI : Std.Symm (Field.Apart (σ := σ)) := ⟨fun _ _ h => h.symm⟩
  hr.apart.forall hf hg hne

theorem Independent.members_perm (hr : r.Independent) (h : ms.Perm ms') :
    ∀ {known last : σ}, r.members known ms = .ok last → r.members known ms' = .ok last := by
  induction h with
  | nil => exact fun h => h
  | cons m _ ih =>
    intro known last hread
    obtain ⟨f, next, hf, hfree, hfill, hrest⟩ := members_cons.1 hread
    exact members_cons.2 ⟨f, next, hf, hfree, hfill, ih hrest⟩
  | swap m m' ms =>
    intro known last hread
    obtain ⟨g, next, hg, hgfree, hgfill, hread⟩ := members_cons.1 hread
    obtain ⟨f, both, hf, hffree, hffill, hrest⟩ := members_cons.1 hread
    have hkeeps := hr.keeps g (List.mem_of_find?_eq_some hg) _ _ _ hgfill
    have hne : g ≠ f := by
      rintro rfl
      rw [hkeeps] at hffree
      cases hffree
    have hapart := hr.apart_of_ne (List.mem_of_find?_eq_some hg) (List.mem_of_find?_eq_some hf) hne
    obtain ⟨next', hffill', hgfill'⟩ := Decoded.bind_eq_ok.1
      ((hapart.swap m'.2 m.2 known both).1 (Decoded.bind_eq_ok.2 ⟨next, hgfill, hffill⟩))
    rw [hapart.filled _ _ _ hgfill] at hffree
    rw [← hapart.filled' _ _ _ hffill'] at hgfree
    exact members_cons.2 ⟨f, next', hf, hffree, hffill',
      members_cons.2 ⟨g, both, hg, hgfree, hgfill', hrest⟩⟩
  | trans _ _ ih ih' => exact fun hread => ih' (ih hread)

/-- Members that are read have different names, all of them names of fields that had no value, and
each could be read. -/
theorem Independent.of_members (hr : r.Independent) :
    ∀ {ms : List (String × Value)} {known : σ}, r.members known ms = .ok last →
      (ms.map Prod.fst).Nodup ∧ ∀ m ∈ ms, ∃ f, (r.fields.find? fun f => f.name = m.1) = some f
        ∧ f.filled known = false ∧ ∃ before next, f.fill m.2 before = .ok next
  | [], _, _ => ⟨List.nodup_nil, fun m hm => absurd hm List.not_mem_nil⟩
  | m :: ms, known, hread => by
    obtain ⟨f, next, hf, hfree, hfill, hrest⟩ := members_cons.1 hread
    obtain ⟨hnodup, hmem⟩ := hr.of_members hrest
    have hkeeps := hr.keeps f (List.mem_of_find?_eq_some hf) _ _ _ hfill
    have hother : ∀ m' ∈ ms, m'.1 ≠ m.1 ∧ ∃ g, (r.fields.find? fun g => g.name = m'.1) = some g
        ∧ g.filled known = false ∧ ∃ before next, g.fill m'.2 before = .ok next := by
      intro m' hm'
      obtain ⟨g, hg, hgfree, hgfill⟩ := hmem m' hm'
      have hne : f ≠ g := by
        rintro rfl
        rw [hkeeps] at hgfree
        cases hgfree
      have hapart :=
        hr.apart_of_ne (List.mem_of_find?_eq_some hf) (List.mem_of_find?_eq_some hg) hne
      refine ⟨fun hname => ?_, g, hg, ?_, hgfill⟩
      · rw [hname, hf] at hg
        exact hne (Option.some.inj hg)
      · rw [← hapart.filled _ _ _ hfill, hgfree]
    refine ⟨?_, ?_⟩
    · rw [List.map_cons, List.nodup_cons]
      refine ⟨fun hm => ?_, hnodup⟩
      obtain ⟨m', hm', hname⟩ := List.mem_map.1 hm
      exact (hother m' hm').1 hname
    · rintro m' (_ | ⟨_, hm'⟩)
      · exact ⟨f, hf, hfree, known, next, hfill⟩
      · exact (hother m' hm').2

/-- The keys are not those of a record with these fields: one of them is unknown or comes twice. -/
def Misfits (names : List String) (ms : List (String × Value)) : Prop :=
  ¬ (ms.map Prod.fst).Nodup ∨ ∃ key ∈ ms.map Prod.fst, key ∉ names

theorem Independent.not_misfits (hr : r.Independent) (hread : r.members known ms = .ok last) :
    ¬ Misfits (r.fields.map Field.name) ms := by
  obtain ⟨hnodup, hmem⟩ := hr.of_members hread
  rintro (h | ⟨key, hkey, hnone⟩)
  · exact h hnodup
  · obtain ⟨m, hm, rfl⟩ := List.mem_map.1 hkey
    obtain ⟨f, hf, -⟩ := hmem m hm
    have hname : f.name = m.1 := by simpa using List.find?_some hf
    exact hnone (hname ▸ List.mem_map_of_mem (List.mem_of_find?_eq_some hf))

theorem members_of_read {a : α} {flaw : Option Flaw}
    (h : r.read (.object ms flaw) = .ok a) : ∃ last, r.members r.blank ms = .ok last := by
  obtain ⟨last, hlast, -⟩ := Decoded.bind_eq_ok.1 h
  exact ⟨last, hlast⟩

/-- The value of a field, if the field is one of those that are given. -/
def given? (p : String → Bool) (name : String) (b : β) : Option β :=
  if p name then some b else none

theorem getD_given? (p : String → Bool) (name : String) (b other : β) :
    (given? p name b).getD other = if p name then b else other := by
  unfold given?
  split <;> rfl

/-- A member that is given gives its field a value, and one that is not leaves it open. -/
theorem members_given {name : String} {read : Value → Decoded β} {get : σ → Option β}
    {put : Option β → σ → σ} {v : Value} {b : β} {known' : σ} (p : String → Bool)
    (hread : read v = .ok b)
    (hfind : (r.fields.find? fun field => field.name = name) = some (.kept name read get put)
      := by rfl)
    (hfree : get known = none := by rfl) (hopen : put none known = known := by rfl)
    (hput : put (given? p name b) known = known' := by rfl) :
    r.members known (((name, v) :: ms).filter fun m => p m.1)
      = r.members known' (ms.filter fun m => p m.1) := by
  rw [List.filter_cons]
  unfold given? at hput
  split
  case isTrue h =>
    rw [if_pos h] at hput
    exact members_kept hread hfind hfree hput
  case isFalse h =>
    rw [if_neg h, hopen] at hput
    rw [hput]

end Record

end Json

namespace ContextLayout

/-- The members of the object that a layout is written as. -/
def members (l : ContextLayout) : List (String × Value) :=
  [("ip", .natural l.ip), ("bp", .natural l.bp), ("stack_base", .natural l.stackBase),
    ("stack_top", .natural l.stackTop)]

/-- The layout with standard values for the fields that are not given. -/
def given (p : String → Bool) (l : ContextLayout) : ContextLayout where
  ip := if p "ip" then l.ip else standard.ip
  bp := if p "bp" then l.bp else standard.bp
  stackBase := if p "stack_base" then l.stackBase else standard.stackBase
  stackTop := if p "stack_top" then l.stackTop else standard.stackTop

theorem format_independent : format.Independent where
  keeps := by
    simp only [format, List.forall_mem_cons, List.not_mem_nil, false_imp_iff, implies_true,
      and_true]
    and_intros <;> exact Field.keeps_kept fun _ _ => rfl
  apart := by
    simp only [format, List.pairwise_cons, List.forall_mem_cons, List.not_mem_nil, false_imp_iff,
      implies_true, and_true, List.Pairwise.nil]
    and_intros <;> exact Field.apart_kept (fun _ _ => rfl) (fun _ _ => rfl) fun _ _ _ => rfl

theorem read_given (l : ContextLayout) (p : String → Bool) {ms : List (String × Value)}
    (h : ms.Perm (l.members.filter fun m => p m.1)) :
    format.read (.object ms none) = .ok (l.given p) := by
  have hfields : format.members ⟨none, none, none, none⟩ (l.members.filter fun m => p m.1)
      = format.members ⟨Record.given? p "ip" l.ip, Record.given? p "bp" l.bp,
        Record.given? p "stack_base" l.stackBase, Record.given? p "stack_top" l.stackTop⟩ [] := by
    calc format.members ⟨none, none, none, none⟩ _
      _ = format.members ⟨Record.given? p "ip" l.ip, none, none, none⟩ _ :=
        Record.members_given p (toWord_natural l.ip)
      _ = format.members ⟨Record.given? p "ip" l.ip, Record.given? p "bp" l.bp, none, none⟩ _ :=
        Record.members_given p (toWord_natural l.bp)
      _ = format.members ⟨Record.given? p "ip" l.ip, Record.given? p "bp" l.bp,
          Record.given? p "stack_base" l.stackBase, none⟩ _ :=
        Record.members_given p (toWord_natural l.stackBase)
      _ = _ := Record.members_given p (toWord_natural l.stackTop)
  refine Record.read_object _ (format_independent.members_perm h.symm hfields) ?_
  simp only [format, Draft.complete, Record.getD_given?, given]

end ContextLayout

namespace Settings

/-- The members of the object that settings are written as, with this value for the layout. -/
def members (s : Settings) (layout : Value) : List (String × Value) :=
  [("interpreter_symbol", .text s.loopSymbol), ("context_symbol", .text s.contextSymbol),
    ("context_layout", layout), ("frame_label", .text s.frameLabel),
    ("max_interior_frames", .natural s.callerLimit)]

/-- The settings with standard values for the fields that are not given, those of the layout by
themselves. -/
def given (outer inner : String → Bool) (s : Settings) : Settings where
  loopSymbol := if outer "interpreter_symbol" then s.loopSymbol else standard.loopSymbol
  contextSymbol := if outer "context_symbol" then s.contextSymbol else standard.contextSymbol
  layout := if outer "context_layout" then s.layout.given inner else standard.layout
  frameLabel := if outer "frame_label" then s.frameLabel else standard.frameLabel
  callerLimit := if outer "max_interior_frames" then s.callerLimit else standard.callerLimit

theorem format_independent : format.Independent where
  keeps := by
    simp only [format, List.forall_mem_cons, List.not_mem_nil, false_imp_iff, implies_true,
      and_true]
    and_intros <;> exact Field.keeps_kept fun _ _ => rfl
  apart := by
    simp only [format, List.pairwise_cons, List.forall_mem_cons, List.not_mem_nil, false_imp_iff,
      implies_true, and_true, List.Pairwise.nil]
    and_intros <;> exact Field.apart_kept (fun _ _ => rfl) (fun _ _ => rfl) fun _ _ _ => rfl

theorem read_given (s : Settings) (outer inner : String → Bool) {layout : Value}
    (hlayout : ContextLayout.format.read layout = .ok (s.layout.given inner))
    {ms : List (String × Value)} (h : ms.Perm ((s.members layout).filter fun m => outer m.1)) :
    format.read (.object ms none) = .ok (s.given outer inner) := by
  have hlimit : Value.unsigned .count (.natural s.callerLimit) = .ok s.callerLimit := rfl
  have hfields : format.members ⟨none, none, none, none, none⟩
        ((s.members layout).filter fun m => outer m.1)
      = format.members ⟨Record.given? outer "interpreter_symbol" s.loopSymbol,
        Record.given? outer "context_symbol" s.contextSymbol,
        Record.given? outer "context_layout" (s.layout.given inner),
        Record.given? outer "frame_label" s.frameLabel,
        Record.given? outer "max_interior_frames" s.callerLimit⟩ [] := by
    calc format.members ⟨none, none, none, none, none⟩ _
      _ = format.members ⟨Record.given? outer "interpreter_symbol" s.loopSymbol, none, none, none,
          none⟩ _ := Record.members_given outer (toText_text s.loopSymbol)
      _ = format.members ⟨Record.given? outer "interpreter_symbol" s.loopSymbol,
          Record.given? outer "context_symbol" s.contextSymbol, none, none, none⟩ _ :=
        Record.members_given outer (toText_text s.contextSymbol)
      _ = format.members ⟨Record.given? outer "interpreter_symbol" s.loopSymbol,
          Record.given? outer "context_symbol" s.contextSymbol,
          Record.given? outer "context_layout" (s.layout.given inner), none, none⟩ _ :=
        Record.members_given outer hlayout
      _ = format.members ⟨Record.given? outer "interpreter_symbol" s.loopSymbol,
          Record.given? outer "context_symbol" s.contextSymbol,
          Record.given? outer "context_layout" (s.layout.given inner),
          Record.given? outer "frame_label" s.frameLabel, none⟩ _ :=
        Record.members_given outer (toText_text s.frameLabel)
      _ = _ := Record.members_given outer hlimit
  refine Record.read_object _ (format_independent.members_perm h.symm hfields) ?_
  simp only [format, Draft.complete, Record.getD_given?, given]

theorem given_all (s : Settings) : s.given (fun _ => true) (fun _ => true) = s := rfl

theorem ofText_of_document {cs : List Char} {ms : List (String × Value)} {s : Settings}
    (hcs : Document.ofText Document.depthLimit cs = ⟨.object ms none, none⟩)
    (h : format.read (.object ms none) = .ok s) : ofText cs = .ok s := by
  rw [ofText, hcs, Document.read, h]
  rfl

theorem intact_object (s : Settings) {outer inner : String → Bool}
    {ms layoutMs : List (String × Value)}
    (hinner : layoutMs.Perm (s.layout.members.filter fun m => inner m.1))
    (houter : ms.Perm ((s.members (.object layoutMs none)).filter fun m => outer m.1)) :
    (Value.object ms none).Intact Document.depthLimit := by
  have hlayout : (Value.object layoutMs none).Intact 126 := by
    refine .object fun m hm => ?_
    have hmem := (List.mem_filter.1 (hinner.mem_iff.1 hm)).1
    simp only [ContextLayout.members, List.mem_cons, List.not_mem_nil, or_false] at hmem
    rcases hmem with rfl | rfl | rfl | rfl <;> exact .natural _
  refine .object fun m hm => ?_
  have hmem := (List.mem_filter.1 (houter.mem_iff.1 hm)).1
  simp only [members, List.mem_cons, List.not_mem_nil, or_false] at hmem
  rcases hmem with rfl | rfl | rfl | rfl | rfl
  · exact .text _
  · exact .text _
  · exact hlayout
  · exact .text _
  · exact .natural _

def names : List String :=
  ["interpreter_symbol", "context_symbol", "context_layout", "frame_label", "max_interior_frames"]

theorem not_misfits {ms : List (String × Value)} {flaw : Option Flaw} {s : Settings}
    (h : format.read (.object ms flaw) = .ok s) :
    ¬ Record.Misfits names ms ∧ ∀ ms' flaw', ("context_layout", .object ms' flaw') ∈ ms →
      ¬ Record.Misfits ["ip", "bp", "stack_base", "stack_top"] ms' := by
  obtain ⟨last, hlast⟩ := Record.members_of_read h
  refine ⟨format_independent.not_misfits hlast, fun ms' flaw' hm => ?_⟩
  obtain ⟨f, hf, -, before, next, hfill⟩ := (format_independent.of_members hlast).2 _ hm
  obtain rfl := Option.some.inj hf
  obtain ⟨layout, hlayout, -⟩ := Field.fill_kept.1 hfill
  obtain ⟨last, hlast⟩ := Record.members_of_read hlayout
  exact ContextLayout.format_independent.not_misfits hlast

/-- Settings are read from an object that gives any of their fields in any order, and any fields of
their layout in any order, with standard values for the others, so that settings are read back from
the text they are written as. An object with a key that is unknown or comes twice is refused, and so
is one whose layout has such a key. -/
theorem fields_completed :
    (∀ (s : Settings) (outer inner : String → Bool) (ms layoutMs : List (String × Value)),
        layoutMs.Perm (s.layout.members.filter fun m => inner m.1) →
        ms.Perm ((s.members (.object layoutMs none)).filter fun m => outer m.1) →
          ofText (Value.object ms none).written = .ok (s.given outer inner)
            ∧ ∀ cs, Document.ofText Document.depthLimit cs = ⟨.object ms none, none⟩ →
              ofText cs = .ok (s.given outer inner))
      ∧ (∀ s : Settings, s.given (fun _ => true) (fun _ => true) = s ∧ ofText s.toText = .ok s)
      ∧ ∀ cs ms flaw, (Document.ofText Document.depthLimit cs).root = .object ms flaw →
        (Record.Misfits names ms ∨ ∃ ms' flaw', ("context_layout", .object ms' flaw') ∈ ms
          ∧ Record.Misfits ["ip", "bp", "stack_base", "stack_top"] ms') →
            ∃ problem, ofText cs = .error problem := by
  have hgiven : ∀ (s : Settings) (outer inner : String → Bool) (ms layoutMs),
      layoutMs.Perm (s.layout.members.filter fun m => inner m.1) →
      ms.Perm ((s.members (.object layoutMs none)).filter fun m => outer m.1) →
        ofText (Value.object ms none).written = .ok (s.given outer inner)
          ∧ ∀ cs, Document.ofText Document.depthLimit cs = ⟨.object ms none, none⟩ →
            ofText cs = .ok (s.given outer inner) := by
    intro s outer inner ms layoutMs hinner houter
    have hread := s.read_given outer inner (s.layout.read_given inner hinner) houter
    exact ⟨ofText_of_document (ofText_written (s.intact_object hinner houter)) hread,
      fun cs hcs => ofText_of_document hcs hread⟩
  refine ⟨hgiven, fun s => ⟨s.given_all, ?_⟩, fun cs ms flaw hroot hmisfits => ?_⟩
  · exact (hgiven s (fun _ => true) (fun _ => true) _ _ (.refl _) (.refl _)).1
  · rcases hread : ofText cs with problem | s
    · exact ⟨problem, rfl⟩
    · obtain ⟨s', hs', -⟩ := Decoded.bind_eq_ok.1 hread
      rw [hroot] at hs'
      obtain ⟨hkeys, hlayout⟩ := not_misfits hs'
      rcases hmisfits with h | ⟨ms', flaw', hm, h⟩
      · exact absurd h hkeys
      · exact absurd h (hlayout ms' flaw' hm)

/-- Settings of which a document shows two fields, and one of the layout. -/
def tuned : Settings where
  loopSymbol := "loop"
  contextSymbol := "context"
  layout := ⟨0x40, 0x48, 0x50, 0x58⟩
  frameLabel := "frame"
  callerLimit := 8

theorem fields_completed_tuned :
    let outer := fun name => name = "interpreter_symbol" || name = "context_layout"
    let inner := fun name => name = "bp"
    let layoutMs := [("bp", Value.natural 0x48)]
    let ms := [("context_layout", Value.object layoutMs none), ("interpreter_symbol", .text "loop")]
    let cs :=
      "\x7b\"context_layout\": \x7b\"bp\":72\x7d, \"interpreter_symbol\": \"loop\"\x7d ".toList
    layoutMs.Perm (tuned.layout.members.filter fun m => inner m.1)
      ∧ ms.Perm ((tuned.members (.object layoutMs none)).filter fun m => outer m.1)
      ∧ Document.ofText Document.depthLimit cs = ⟨.object ms none, none⟩
      ∧ ofText cs = .ok ⟨"loop", Settings.standard.contextSymbol, ⟨0x00, 0x48, 0x10, 0x18⟩,
        Settings.standard.frameLabel, 4096⟩
      ∧ Record.Misfits names (ms ++ ms)
      ∧ ∃ problem, ofText (Value.object (ms ++ ms) none).written = .error problem := by
  intro outer inner layoutMs ms cs
  have hinner : layoutMs.Perm (tuned.layout.members.filter fun m => inner m.1) := .refl _
  have houter : ms.Perm ((tuned.members (.object layoutMs none)).filter fun m => outer m.1) :=
    .swap _ _ []
  have hcs : Document.ofText Document.depthLimit cs = ⟨.object ms none, none⟩ := rfl
  have hmisfits : Record.Misfits names (ms ++ ms) := .inl (by decide)
  have htwice : (Document.ofText Document.depthLimit (Value.object (ms ++ ms) none).written).root
      = .object (ms ++ ms) none := rfl
  obtain ⟨hgiven, -, hrefused⟩ := fields_completed
  exact ⟨hinner, houter, hcs, (hgiven tuned outer inner ms layoutMs hinner houter).2 cs hcs,
    hmisfits, hrefused _ _ _ htwice (.inl hmisfits)⟩

end Settings

end MixedStack
