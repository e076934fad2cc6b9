import MixedStack.Event

/-!
# Traced answers

An answer together with all that was done for it, in order: what was asked of the host and what was
noted for the log. An attempt may end in a fault, and keeps what was done before.
-/

namespace MixedStack

/-- One thing done on the way to an answer. -/
inductive Action where
  | lookup (symbol : String)
  | read (addr : Word) (len : Nat)
  | event (e : Event)
  deriving DecidableEq, Repr

structure Traced (α : Type) where
  value : α
  trail : List Action
  deriving DecidableEq, Repr

namespace Traced

variable {α β : Type}

instance : Monad Traced where
  pure a := ⟨a, []⟩
  bind x f := ⟨(f x.value).value, x.trail ++ (f x.value).trail⟩

@[simp] theorem value_pure (a : α) : (pure a : Traced α).value = a := rfl

@[simp] theorem trail_pure (a : α) : (pure a : Traced α).trail = [] := rfl

@[simp] theorem value_bind (x : Traced α) (f : α → Traced β) :
    (x >>= f).value = (f x.value).value := rfl

@[simp] theorem trail_bind (x : Traced α) (f : α → Traced β) :
    (x >>= f).trail = x.trail ++ (f x.value).trail := rfl

instance : LawfulMonad Traced := LawfulMonad.mk' Traced
  (by intro α x; simp [Functor.map])
  (by intro α β a f; simp [bind, pure])
  (by intro α β γ x f g; simp [bind])

@[simp] theorem value_map (f : α → β) (x : Traced α) : (f <$> x).value = f x.value := rfl

/-- Another answer for the same trail. -/
def map (f : α → β) (x : Traced α) : Traced β := ⟨f x.value, x.trail⟩

def note (e : Event) : Traced Unit := ⟨(), [.event e]⟩

/-- Asks the host for a symbol. -/
def lookup (h : Host) (symbol : String) : Traced (Option Word) :=
  ⟨h.lookup symbol, [.lookup symbol]⟩

/-- Asks the host for a word of memory. -/
def readWord (h : Host) (addr : Word) : Traced (Except HostError Word) :=
  ⟨h.readWord addr, [.read addr 8]⟩

def events (x : Traced α) : List Event :=
  x.trail.filterMap fun
    | .event e => some e
    | _ => none

/-- How often the host was asked for a symbol. -/
def lookups (x : Traced α) : Nat :=
  x.trail.countP fun
    | .lookup _ => true
    | _ => false

@[simp] theorem lookups_pure (a : α) : (pure a : Traced α).lookups = 0 := rfl

@[simp] theorem lookups_bind (x : Traced α) (f : α → Traced β) :
    (x >>= f).lookups = x.lookups + (f x.value).lookups := List.countP_append

@[simp] theorem lookups_note (e : Event) : (note e).lookups = 0 := rfl

@[simp] theorem lookups_lookup (h : Host) (symbol : String) : (lookup h symbol).lookups = 1 := rfl

/-- How often the host was asked for memory. -/
def reads (x : Traced α) : Nat :=
  x.trail.countP fun
    | .read .. => true
    | _ => false

end Traced

/-- A traced answer that may be a fault. -/
abbrev Attempt (α : Type) := ExceptT Fault Traced α

namespace Attempt

variable {α β : Type}

/-- An answer for which nothing has to be done. -/
def settled (x : Except Fault α) : Attempt α :=
  ExceptT.mk (pure x)

/-- An answer of the host, whose errors are faults. -/
def ofHost (x : Traced (Except HostError α)) : Attempt α :=
  ExceptT.mk ((Except.mapError Fault.host) <$> x)

def readWord (h : Host) (addr : Word) : Attempt Word :=
  ofHost (Traced.readWord h addr)

/-- Keeps what was done, and answers the fault as a value. -/
def outcome (x : Attempt α) : Traced (Except Fault α) :=
  ExceptT.run x

@[simp] theorem value_outcome_pure (a : α) : (pure a : Attempt α).outcome.value = .ok a := rfl

@[simp] theorem value_outcome_throw (e : Fault) :
    (throw e : Attempt α).outcome.value = .error e := rfl

@[simp] theorem value_outcome_bind (x : Attempt α) (f : α → Attempt β) :
    (x >>= f).outcome.value = x.outcome.value.bind fun a => (f a).outcome.value := by
  simp only [outcome, ExceptT.run_bind, Traced.value_bind]
  cases (ExceptT.run x).value <;> rfl

/-- Two steps succeed together if the first does, and the second behind it. -/
theorem bind_eq_ok {x : Attempt α} {f : α → Attempt β} {b : β} :
    (x >>= f).outcome.value = .ok b
      ↔ ∃ a, x.outcome.value = .ok a ∧ (f a).outcome.value = .ok b := by
  rw [value_outcome_bind]
  rcases x.outcome.value with fault | a
  · refine ⟨nofun, ?_⟩
    rintro ⟨a, h, -⟩
    cases h
  · refine ⟨fun h => ⟨a, rfl, h⟩, ?_⟩
    rintro ⟨a', h, hb⟩
    cases h
    exact hb

@[simp] theorem value_outcome_map (f : α → β) (x : Attempt α) :
    (f <$> x).outcome.value = x.outcome.value.map f := by
  simp only [outcome, ExceptT.run_map, Traced.value_map]

theorem map_eq_ok {f : α → β} {x : Attempt α} {b : β} :
    (f <$> x).outcome.value = .ok b ↔ ∃ a, x.outcome.value = .ok a ∧ f a = b := by
  rw [← bind_pure_comp, bind_eq_ok]
  simp only [value_outcome_pure, Except.ok.injEq]

@[simp] theorem value_outcome_lift (x : Traced α) :
    (liftM x : Attempt α).outcome.value = .ok x.value := rfl

@[simp] theorem value_outcome_settled (x : Except Fault α) : (settled x).outcome.value = x := rfl

@[simp] theorem value_outcome_ofHost (x : Traced (Except HostError α)) :
    (ofHost x).outcome.value = x.value.mapError .host := rfl

theorem ofHost_eq_ok {x : Traced (Except HostError α)} {a : α} :
    (ofHost x).outcome.value = .ok a ↔ x.value = .ok a := by
  rw [value_outcome_ofHost]
  rcases x.value with error | b
  · exact ⟨nofun, nofun⟩
  · constructor <;> rintro ⟨⟩ <;> rfl

end Attempt

end MixedStack
