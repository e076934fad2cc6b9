import MixedStack.Proofs.Addresses
import MixedStack.Proofs.Written
import MixedStack.Recording.Format

/-!
# Recordings are read back

A recording is read back from the document it is written as, whatever its symbols, memory and stops
are (`Recording.ofText_toText`). A document that gives the recording in any other form is thus worth
the one that is written.
-/

namespace MixedStack

open Json

namespace Json

theorem toList_map {α : Type} {item : Value → Decoded α} {toValue : α → Value}
    (h : ∀ a, item (toValue a) = .ok a) (as : List α) :
    Value.toList item (.list (as.map toValue) none) = .ok as := by
  have hitems : (as.map toValue).mapM item = .ok as := by
    induction as with
    | nil => rfl
    | cons a as ih =>
      simp only [List.map_cons, List.mapM_cons, h, ih]
      rfl
  simp only [Value.toList, hitems]
  rfl

theorem toText_text (s : String) : Value.toText (.text s) = .ok s := rfl

theorem toWord_natural (n : Word) : Value.toWord (.natural n) = .ok n := rfl

namespace Record

variable {σ α β : Type} {r : Record σ α} {known known' : σ} {ms : List (String × Value)}

/-- A member gives its field a value, and the members behind it are read with that known. -/
theorem members_kept {name : String} {read : Value → Decoded β} {get : σ → Option β}
    {put : Option β → σ → σ} {v : Value} {b : β} (hread : read v = .ok b)
    (hfind : (r.fields.find? fun field => field.name = name) = some (.kept name read get put)
      := by rfl)
    (hfree : get known = none := by rfl) (hput : put (some b) known = known' := by rfl) :
    r.members known ((name, v) :: ms) = r.members known' ms := by
  simp only [members, hfind, Field.kept, hfree, Option.isSome_none, Bool.false_eq_true, if_false,
    hread, ← hput]
  rfl

theorem read_object (last : σ) {a : α} (hm : r.members r.blank ms = .ok last)
    (ha : r.finish last = .ok a) :
    r.read (.object ms none) = .ok a := by
  simp only [read, hm, bind, Except.bind, Decoded.before, ha]
  rfl

end Record

theorem Value.intact_list {α : Type} {depth : Nat} {toValue : α → Value}
    (h : ∀ a, (toValue a).Intact depth) (as : List α) :
    (Value.list (as.map toValue) none).Intact (depth + 1) := by
  refine .list fun v hv => ?_
  obtain ⟨a, -, rfl⟩ := List.mem_map.1 hv
  exact h a

end Json

theorem Symbol.read_toValue (s : Symbol) : format.read s.toValue = .ok s := by
  refine Record.read_object ⟨some s.name, some s.address, some s.size⟩ ?_ rfl
  calc format.members ⟨none, none, none⟩ _
    _ = format.members ⟨some s.name, none, none⟩ _ := Record.members_kept (toText_text s.name)
    _ = format.members ⟨some s.name, some s.address, none⟩ _ :=
      Record.members_kept (Address.read_toValue s.address)
    _ = format.members ⟨some s.name, some s.address, some s.size⟩ [] :=
      Record.members_kept (toWord_natural s.size)

theorem Region.read_toValue (r : Region) : format.read r.toValue = .ok r := by
  refine Record.read_object ⟨some r.address, some r.words⟩ ?_ rfl
  calc format.members ⟨none, none⟩ _
    _ = format.members ⟨some r.address, none⟩ _ :=
      Record.members_kept (Address.read_toValue r.address)
    _ = format.members ⟨some r.address, some r.words⟩ [] :=
      Record.members_kept (toList_map Address.read_toValue r.words)

theorem ThreadState.read_toValue (t : ThreadState) : format.read t.toValue = .ok t := by
  obtain ⟨id, rip, rsp, rbp⟩ := t
  refine Record.read_object ⟨some id, some rip, some rsp, some rbp⟩ ?_ rfl
  calc format.members ⟨none, none, none, none⟩ _
    _ = format.members ⟨some id, none, none, none⟩ _ := Record.members_kept (toWord_natural id)
    _ = format.members ⟨some id, some rip, none, none⟩ _ :=
      Record.members_kept (Address.read_toValue rip)
    _ = format.members ⟨some id, some rip, some rsp, none⟩ _ :=
      Record.members_kept (Address.read_toValue rsp)
    _ = format.members ⟨some id, some rip, some rsp, some rbp⟩ [] :=
      Record.members_kept (Address.read_toValue rbp)

theorem Stop.read_toValue (s : Stop) : format.read s.toValue = .ok s := by
  refine Record.read_object ⟨some s.threads, some s.memory⟩ ?_ rfl
  calc format.members ⟨none, none⟩ _
    _ = format.members ⟨some s.threads, none⟩ _ :=
      Record.members_kept (toList_map ThreadState.read_toValue s.threads)
    _ = format.members ⟨some s.threads, some s.memory⟩ [] :=
      Record.members_kept (toList_map Region.read_toValue s.memory)

namespace Recording

theorem read_toValue (r : Recording) : format.read r.toValue = .ok r := by
  refine Record.read_object ⟨some r.symbols, some r.memory, some r.stops⟩ ?_ rfl
  calc format.members ⟨none, none, none⟩ _
    _ = format.members ⟨some r.symbols, none, none⟩ _ :=
      Record.members_kept (toList_map Symbol.read_toValue r.symbols)
    _ = format.members ⟨some r.symbols, some r.memory, none⟩ _ :=
      Record.members_kept (toList_map Region.read_toValue r.memory)
    _ = format.members ⟨some r.symbols, some r.memory, some r.stops⟩ [] :=
      Record.members_kept (toList_map Stop.read_toValue r.stops)

theorem intact_toValue (r : Recording) : r.toValue.Intact Document.depthLimit := by
  have haddress : ∀ depth w, (Address.toValue w).Intact depth := fun _ w => .text w.hex
  have hsymbol : ∀ s : Symbol, s.toValue.Intact 125 := fun s =>
    .object (by simp [Value.Intact.text, Value.Intact.natural, haddress])
  have hregion : ∀ depth (m : Region), m.toValue.Intact (depth + 2) := fun depth m =>
    .object (by simp [Value.intact_list, haddress])
  have hthread : ∀ t : ThreadState, t.toValue.Intact 123 := fun t =>
    .object (by simp [Value.Intact.natural, haddress])
  have hstop : ∀ s : Stop, s.toValue.Intact 125 := fun s =>
    .object (by simp [Value.intact_list, hregion, hthread])
  exact .object (by simp [Value.intact_list, hsymbol, hregion, hstop])

/-- A recording is read back from its own document. So whatever document a recording was read from,
it is read again from the document it is written as. -/
theorem ofText_toText :
    (∀ r : Recording, ofText r.toText = .ok r)
      ∧ ∀ cs, (ofText cs >>= fun r => ofText r.toText) = ofText cs := by
  have hread : ∀ r : Recording, ofText r.toText = .ok r := by
    intro r
    rw [ofText, toText, ofText_written r.intact_toValue, Document.read, read_toValue]
    rfl
  refine ⟨hread, fun cs => ?_⟩
  rcases ofText cs with problem | r
  · rfl
  · exact hread r

end Recording

end MixedStack
