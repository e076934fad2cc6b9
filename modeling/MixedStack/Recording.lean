import MixedStack.Machine

/-!
# Recordings

A program that was halted several times: its symbols, the memory that stays the same, and for each
halt the registers of the threads and the memory that differs.
-/

namespace MixedStack

/-- A name of the program. Code has a size, and fills it from its address on. -/
structure Symbol where
  name : String
  address : Word
  size : Word
  deriving DecidableEq, Repr

namespace Symbol

def covers (s : Symbol) (pc : Word) : Bool :=
  s.address ≤ pc && pc - s.address < s.size

end Symbol

/-- Words that lie one behind the other. -/
structure Region where
  address : Word
  words : List Word
  deriving DecidableEq, Repr

namespace Region

def bytes (r : Region) : List UInt8 :=
  r.words.flatMap Word.bytes

/-- The words in which the bytes from an offset on lie. -/
def wordsAround (r : Region) (offset len : Nat) : List Word :=
  (r.words.drop (offset / 8)).take (len / 8 + 2)

/-- The bytes from an address on, none unless all of them lie in the region. -/
def read? (r : Region) (addr : Word) (len : Nat) : Option (List UInt8) :=
  let offset := (addr - r.address).toNat
  if r.address ≤ addr ∧ offset + len ≤ 8 * r.words.length then
    some ((((r.wordsAround offset len).flatMap Word.bytes).drop (offset % 8)).take len)
  else none

theorem length_bytes (r : Region) : r.bytes.length = 8 * r.words.length := by
  simp [bytes, List.length_flatMap, List.map_const', Nat.mul_comm]

theorem flatMap_bytes_drop (ws : List Word) (n : Nat) :
    (ws.drop n).flatMap Word.bytes = (ws.flatMap Word.bytes).drop (8 * n) := by
  induction n generalizing ws with
  | zero => simp
  | succ n ih =>
    cases ws with
    | nil => simp
    | cons w ws => simp [ih, List.drop_append, Nat.mul_succ]

theorem flatMap_bytes_take (ws : List Word) (n : Nat) :
    (ws.take n).flatMap Word.bytes = (ws.flatMap Word.bytes).take (8 * n) := by
  induction n generalizing ws with
  | zero => simp
  | succ n ih =>
    cases ws with
    | nil => simp
    | cons w ws =>
      have h : w.bytes.take (8 * n + 8) = w.bytes := List.take_of_length_le (by simp)
      simp [ih, List.take_append, Nat.mul_succ, h]

/-- Reading cuts a piece out of the bytes of a region. -/
theorem read?_eq (r : Region) (addr : Word) (len : Nat) :
    r.read? addr len =
      if r.address ≤ addr ∧ (addr - r.address).toNat + len ≤ 8 * r.words.length then
        some ((r.bytes.drop (addr - r.address).toNat).take len)
      else none := by
  simp only [read?, wordsAround, flatMap_bytes_take, flatMap_bytes_drop, bytes]
  generalize (addr - r.address).toNat = offset
  congr 2
  rw [List.drop_take, List.take_take, List.drop_drop]
  congr 1
  · omega
  · congr 1
    omega

end Region

/-- A thread as it was halted. -/
structure ThreadState where
  id : ThreadId
  registers : Registers
  deriving DecidableEq, Repr

/-- One halt of the program. -/
structure Stop where
  threads : List ThreadState
  memory : List Region
  deriving DecidableEq, Repr

structure Recording where
  symbols : List Symbol
  memory : List Region
  stops : List Stop
  deriving DecidableEq, Repr

end MixedStack
