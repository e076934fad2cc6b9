import MixedStack.Json.Printer
import MixedStack.Json.Reader
import MixedStack.Recording
import MixedStack.Recording.Address

/-!
# Recordings as documents

Symbols, regions, threads and stops are records. Symbols and memory may be left out where there are
none, and a symbol that is no code needs no size.
-/

namespace MixedStack

open Json

namespace Symbol

structure Draft where
  name : Option String
  address : Option Word
  size : Option Word

def format : Record Draft Symbol where
  name := "SymbolDef"
  fields := [
    .kept "name" Value.toText Draft.name fun name d => { d with name },
    .kept "address" Address.read Draft.address fun address d => { d with address },
    .kept "size" Value.toWord Draft.size fun size d => { d with size }]
  blank := ⟨none, none, none⟩
  finish d := return {
    name := ← Record.required 0 d.name
    address := ← Record.required 1 d.address
    size := d.size.getD 0 }

def toValue (s : Symbol) : Value :=
  .object [
    ("name", .text s.name),
    ("address", Address.toValue s.address),
    ("size", .natural s.size)] none

end Symbol

namespace Region

structure Draft where
  address : Option Word
  words : Option (List Word)

def format : Record Draft Region where
  name := "MemoryRegion"
  fields := [
    .kept "address" Address.read Draft.address fun address d => { d with address },
    .kept "words" (Value.toList Address.read) Draft.words fun words d => { d with words }]
  blank := ⟨none, none⟩
  finish d := return {
    address := ← Record.required 0 d.address
    words := ← Record.required 1 d.words }

def toValue (r : Region) : Value :=
  .object [
    ("address", Address.toValue r.address),
    ("words", .list (r.words.map Address.toValue) none)] none

end Region

namespace ThreadState

structure Draft where
  id : Option Word
  rip : Option Word
  rsp : Option Word
  rbp : Option Word

def format : Record Draft ThreadState where
  name := "ThreadState"
  fields := [
    .kept "id" Value.toWord Draft.id fun id d => { d with id },
    .kept "rip" Address.read Draft.rip fun rip d => { d with rip },
    .kept "rsp" Address.read Draft.rsp fun rsp d => { d with rsp },
    .kept "rbp" Address.read Draft.rbp fun rbp d => { d with rbp }]
  blank := ⟨none, none, none, none⟩
  finish d := return {
    id := ← Record.required 0 d.id
    registers := {
      rip := ← Record.required 1 d.rip
      rsp := ← Record.required 2 d.rsp
      rbp := ← Record.required 3 d.rbp } }

def toValue (t : ThreadState) : Value :=
  .object [
    ("id", .natural t.id),
    ("rip", Address.toValue t.registers.rip),
    ("rsp", Address.toValue t.registers.rsp),
    ("rbp", Address.toValue t.registers.rbp)] none

end ThreadState

namespace Stop

structure Draft where
  threads : Option (List ThreadState)
  memory : Option (List Region)

def format : Record Draft Stop where
  name := "Stop"
  fields := [
    .kept "threads" (Value.toList ThreadState.format.read) Draft.threads
      fun threads d => { d with threads },
    .kept "memory" (Value.toList Region.format.read) Draft.memory fun memory d => { d with memory }]
  blank := ⟨none, none⟩
  finish d := return {
    threads := ← Record.required 0 d.threads
    memory := d.memory.getD [] }

def toValue (s : Stop) : Value :=
  .object [
    ("threads", .list (s.threads.map ThreadState.toValue) none),
    ("memory", .list (s.memory.map Region.toValue) none)] none

end Stop

namespace Recording

structure Draft where
  symbols : Option (List Symbol)
  memory : Option (List Region)
  stops : Option (List Stop)

def format : Record Draft Recording where
  name := "Snapshot"
  fields := [
    .kept "symbols" (Value.toList Symbol.format.read) Draft.symbols
      fun symbols d => { d with symbols },
    .kept "memory" (Value.toList Region.format.read) Draft.memory fun memory d => { d with memory },
    .kept "stops" (Value.toList Stop.format.read) Draft.stops fun stops d => { d with stops }]
  blank := ⟨none, none, none⟩
  finish d := return {
    symbols := d.symbols.getD []
    memory := d.memory.getD []
    stops := ← Record.required 2 d.stops }

def toValue (r : Recording) : Value :=
  .object [
    ("symbols", .list (r.symbols.map Symbol.toValue) none),
    ("memory", .list (r.memory.map Region.toValue) none),
    ("stops", .list (r.stops.map Stop.toValue) none)] none

def ofText (cs : List Char) : Decoded Recording :=
  (Document.ofText Document.depthLimit cs).read format.read

/-- The text of a recording, with all its fields. -/
def toText (r : Recording) : List Char :=
  r.toValue.written

end Recording

end MixedStack
