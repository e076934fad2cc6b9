import MixedStack.Word

/-!
# Slots

A slot of the managed stack is one word. Its sixteen upper bits tell a boxed value from a double:
below `0xfff9` the whole word is a double, from there on they are the tag of a payload of 48 bits.
-/

namespace MixedStack

/-- What a slot says it holds. -/
inductive Tag where
  | double
  | uint48
  | pointer
  | int48
  | reference
  | unknown (bits : UInt16)
  deriving DecidableEq, Repr

namespace Tag

/-- The place of the tag in a slot. -/
def shift : Nat := 48

def mask : Word := 0xffff000000000000

/-- The tag that sixteen bits stand for. -/
def ofBits (bits : UInt16) : Tag :=
  if bits < 0xfff9 then .double
  else if bits = 0xfff9 then .uint48
  else if bits = 0xfffa then .pointer
  else if bits = 0xfffb then .int48
  else if bits = 0xfffc then .reference
  else .unknown bits

/-- The sixteen bits of a tag, none for a double. -/
def bits? : Tag → Option UInt16
  | double => none
  | uint48 => some 0xfff9
  | pointer => some 0xfffa
  | int48 => some 0xfffb
  | reference => some 0xfffc
  | unknown bits => some bits

/-- A tag in its place in a slot, none for a double. -/
def word? (t : Tag) : Option Word :=
  t.bits?.map fun bits => bits.toUInt64 <<< UInt64.ofNat shift

/-- The tag as the interpreter's own headers name it. -/
def label : Tag → String
  | double => "double"
  | uint48 => "AS_UINT48"
  | pointer => "AS_PTR"
  | int48 => "AS_INT48"
  | reference => "AS_REF"
  | unknown bits => "unknown(" ++ Word.hexFilled 4 bits.toUInt64 ++ ")"

/-- The tag as a message about a fault names it. -/
def name : Tag → String
  | double => "Double"
  | uint48 => "Uint48"
  | pointer => "Ptr"
  | int48 => "Int48"
  | reference => "Ref"
  | unknown bits => "Unknown(" ++ Word.decimal bits.toUInt64 ++ ")"

end Tag

/-- One word of the managed stack. -/
structure Slot where
  word : Word
  deriving DecidableEq, Repr

namespace Slot

def size : Nat := 8

/-- The bits of a slot that are its payload. -/
def payloadMask : Word := 0x0000ffffffffffff

/-- A payload behind a tag. A double has no room for a tag and is kept whole. -/
def boxed (t : Tag) (payload : Word) : Slot :=
  match t.word? with
  | some tag => ⟨tag ||| (payload &&& payloadMask)⟩
  | none => ⟨payload⟩

def tag (s : Slot) : Tag :=
  .ofBits (s.word >>> UInt64.ofNat Tag.shift).toUInt16

def payload (s : Slot) : Word :=
  s.word &&& payloadMask

/-- The payload behind the tag asked for, or the tag that is there. A double has no payload to ask
for. -/
def expect (s : Slot) (t : Tag) : Except Tag Word :=
  if s.tag = t ∧ t ≠ .double then .ok s.payload else .error s.tag

/-- The payload of a pointer. -/
def pointer? (s : Slot) : Option Word :=
  (s.expect .pointer).toOption

/-- The payload of an unsigned integer. -/
def uint48? (s : Slot) : Option Word :=
  (s.expect .uint48).toOption

/-- The payload of a signed integer, its highest bit the sign. -/
def int48? (s : Slot) : Option Int :=
  (s.expect .int48).toOption.map fun p =>
    if p.toNat < 1 <<< 47 then (p.toNat : Int) else (p.toNat : Int) - (1 <<< 48 : Nat)

end Slot

end MixedStack
